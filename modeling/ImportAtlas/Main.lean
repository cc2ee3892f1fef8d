import ImportAtlas.Console.Command
import ImportAtlas.Console.Plain

/-!
# The program

Loads the files below the working directory, and the settings file of the home directory, into a
host, uses the program once on it, shows what was printed, and writes what has changed. Other
programs are not started from here: version control and the layout program count as missing, and a
database lasts only as long as the use.
-/

namespace ImportAtlas

namespace Program

/-- The place of a path from the root. -/
def placeOf (path : String) : Place :=
  Path.namesOf path.toList

/-- Loads what stands at a path, and all below it, into a tree. What a link leads to stays outside;
the link itself is kept. -/
partial def load (tree : Tree Content) (path : String) : IO (Tree Content) := do
  let real ← IO.FS.realPath path
  if real.toString != path then
    return tree.plant (placeOf path) (.link real.toString)
  else if ← real.isDir then
    let mut grown := tree.plant (placeOf path) .folder
    for entry in ← real.readDir do
      grown ← load grown entry.path.toString
    return grown
  else
    let bytes ← IO.FS.readBinFile path
    return tree.plant (placeOf path) (.file (.bytes bytes.toList))

/-- Loads what stands at a path, if anything does. -/
def loadIfThere (tree : Tree Content) (path : String) : IO (Tree Content) := do
  try
    load tree (← IO.FS.realPath path).toString
  catch _ =>
    return tree

/-- The variables of the environment that the program looks at. -/
def environment : IO (Dictionary String String) := do
  let names := "HOME" :: Settings.names.map Settings.variableName
  let found ← names.mapM fun name => return (← IO.getEnv name).map fun text => (name, text)
  return found.filterMap id

/-- The host as the program finds it. -/
def hostNow : IO Host := do
  let here := (← IO.currentDir).toString
  let environment ← environment
  let home := (environment.get? "HOME").getD "/"
  let tree ← load .empty here
  let tree ← loadIfThere tree (home ++ "/.import-diagram.toml")
  return {
    tree, folder := placeOf here, environment, replies := []
    stamp := toString (← IO.monoMsNow) }

/-- Whether a file has the content that it had before. -/
def isUnchanged (before : Tree Content) (place : Place) (bs : List UInt8) : Bool :=
  match before.get? place with
  | some (.file (.bytes old)) => old == bs
  | _ => false

/-- Writes the files and folders that a use has made or changed. -/
def save (before after : Tree Content) : IO Unit := do
  for (place, entry) in after.entries do
    let path := (Path.ofPlace place).text
    match entry with
    | .folder => if !before.isFolder place then IO.FS.createDirAll path
    | .file (.bytes bs) =>
      -- What was not written to is left alone.
      if !isUnchanged before place bs then
        IO.FS.writeBinFile path ⟨bs.toArray⟩
    | _ => pure ()

/-- Uses the program once; gives the exit status. -/
def start (arguments : List String) : IO UInt32 := do
  let before ← hostNow
  let (ending, after) := Console.use .plain arguments before
  ending.printed.forM fun line => IO.println line
  if let some e := ending.escaped then
    IO.eprintln (e.text after.wording)
  if ending.status = 2 then
    IO.eprintln "the arguments cannot be understood"
  save before.tree after.tree
  return ending.status.toUInt32

end Program

end ImportAtlas

/-- Uses the program once, with the arguments it is given. -/
def main (arguments : List String) : IO UInt32 :=
  ImportAtlas.Program.start arguments
