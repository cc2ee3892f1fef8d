import ImportAtlas.Host
import ImportAtlas.Pattern.Exclusion

/-!
# Inventory

The source files of a run: the files below some directories that have one of the source
extensions. They are found by walking the tree, or listed by version control. The inventory is
sorted and names no file twice, however directories overlap.
-/

namespace ImportAtlas

namespace Inventory

/-- The channel of the inventory's log records. -/
def channel : String := "inventory"

/-- Stops because the files of a directory cannot be listed. -/
def refuse {α : Type} (directory : Path) (reason : String) : Act α :=
  .fail (.inventory directory.text reason)

/-- Whether a file has one of the extensions. -/
def hasExtension (extensions : List String) (p : Path) : Bool :=
  extensions.any fun e => p.suffix == "." ++ e

/-- The canonical path of a directory to be listed. -/
def startingAt (directory : String) : Act Path := do
  let root ← Act.resolve (Path.ofText directory)
  if !(← Act.isFolder root.text) then
    refuse root "not a directory"
  return root

/-- Why a pattern that is no text stops the work. One that is empty counts as an empty text, and one
with a slash in it is taken apart as if it were a text. -/
def patternError (pattern : Value) : Error :=
  if !pattern.isTruthy then
    .emptyPattern
  else
    -- The pattern is asked for its parts as a path would be.
    match pattern with
    | .table _ => .noEntry
    | .list items => if items.contains (.text "/") then .unsupported else .illTyped
    | _ => .illTyped

/-- Whether a pattern excludes a file below `root`. A pattern that is no text is met only if no
pattern before it excludes the file. -/
def isExcluded (patterns : List Value) (root p : Path) : Act Bool :=
  let (texts, other) := Value.leadingTexts patterns
  -- The patterns are tried in order: a value that is no text matters if no text before it matches.
  match shouldSkip? texts root p, other with
  | some true, _ => return true
  | some false, none => return false
  | some false, some pattern => throw (patternError pattern)
  | none, _ => throw .emptyPattern

/-- What walking found: files to be kept, and the number of excluded ones. -/
structure Walked where
  files : List String := []
  excluded : Nat := 0

/-- The entries below the folder that `root` leads to. Their paths go on from `root` as it is
spelled, whatever links it goes through. -/
def entriesBelow (t : Tree Content) (here : Place) (root : Path) : List (Path × Entry Content) :=
  match t.lookup here root.text with
  | .ok (place, _) => (t.below place).map fun e =>
    ({ root with names := root.names ++ e.1.drop place.length }, e.2)
  | .error _ => []

/-- Looks at one entry below `root`. Links are looked through, but not walked into. -/
def visit (extensions : List String) (patterns : List Value) (root : Path) (found : Walked)
    (entry : Path × Entry Content) : Act Walked := do
  let p := entry.1
  -- A link whose target cannot even be named stops the walk.
  if let .link _ := entry.2 then
    discard (Act.probe p.text)
  if !hasExtension extensions p then
    return found
  else if !(← Act.isFile p.text) then
    return found
  else if ← isExcluded patterns root p then
    return { found with excluded := found.excluded + 1 }
  else
    return { found with files := found.files ++ [p.text] }

/-- The files below a directory that have one of the extensions and that no pattern excludes. -/
def walk (directory : String) (extensions : List String) (patterns : List Value) :
    Act (List String) := do
  let root ← startingAt directory
  let host ← get
  let entries := entriesBelow host.tree host.folder root
  let found ← entries.foldlM (visit extensions patterns root) {}
  Act.log .debug channel ("Walked " ++ root.text ++ ": " ++ toString found.files.length
    ++ " files, " ++ toString found.excluded ++ " excluded")
  return found.files

/-- What version control says is below a directory. -/
def trackedNames (root : Path) (timeout : Value) : Act String := do
  let arguments := ["git", "-C", root.text, "ls-files", "-z", "--cached"]
  match ← Act.call (arguments.map .text) timeout with
  | .notFound => refuse root "git executable not found"
  | .timedOut => refuse root ("git ls-files timed out after " ++ (← Act.spell timeout) ++ "s")
  | .finished status output errors =>
    if status = 0 then
      return output
    else
      let said := String.ofList (Text.trim errors.toList)
      refuse root (if said = "" then "git ls-files failed" else said)

/-- The files below a directory that version control knows, that exist and that have one of the
extensions, in the order in which it names them. -/
def listTracked (directory : String) (extensions : List String) (timeout : Value) :
    Act (List String) := do
  let root ← startingAt directory
  let output ← trackedNames root timeout
  -- The names end in NUL, so the last piece is empty.
  let names := ((output.toList.splitOn '\x00').map String.ofList).filter (· != "")
  let paths := (names.map fun n => (root / Path.ofText n : Path)).filter (hasExtension extensions)
  let files ← paths.filterM fun p => Act.isFile p.text
  Act.log .debug channel ("git ls-files: " ++ toString files.length ++ " matching files in "
    ++ root.text)
  return files.map (·.text)

/-- What is to be listed. -/
structure Request where
  directories : List String
  extensions : List String
  trackedOnly : Bool := true
  excludePatterns : List Value := []
  timeout : Value := .int 60

/-- Texts in ascending order, each once. -/
def sorted (texts : List String) : List String :=
  texts.eraseDups.mergeSort fun a b => a ≤ b

/-- The source files below some directories, in ascending order. -/
def list (r : Request) : Act (List String) := do
  let found ← r.directories.mapM fun directory =>
    if r.trackedOnly then listTracked directory r.extensions r.timeout
    else walk directory r.extensions r.excludePatterns
  let files := sorted found.flatten
  Act.log .info channel ("Inventory: " ++ toString files.length ++ " source files")
  return files

end Inventory

end ImportAtlas
