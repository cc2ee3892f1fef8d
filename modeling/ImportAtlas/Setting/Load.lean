import ImportAtlas.Setting.Basic
import ImportAtlas.Setting.Pair
import ImportAtlas.Text.Integer
import ImportAtlas.Toml.Document

/-!
# Where settings come from

Named values are gathered from a file in the home directory, a file in the working directory, a
file that is asked for, the environment, and what the caller says. Each source is written over the
ones before it. A file gives its table of this program if it has one, else all of it; the
environment gives single values only.
-/

namespace ImportAtlas

/-- Named values as they are gathered. A list of pairs may bring names that are no text, which are
only counted. -/
structure Gathered where
  entries : Dictionary String Value := []
  hasNamelessEntry : Bool := false

namespace Gathered

/-- Writes named values over those gathered so far. -/
def write (g : Gathered) (entries : List (String × Value)) : Gathered :=
  { g with entries := Dictionary.putAll g.entries entries }

/-- Writes one pair. -/
def writePair (g : Gathered) : Value × Value → Gathered
  | (.text name, v) => g.write [(name, v)]
  | _ => { g with hasNamelessEntry := true }

/-- Writes a value that should be a table; a list of pairs is taken for one. -/
def writeValue (g : Gathered) (v : Value) : Except Error Gathered := do
  return (← v.pairs).foldl writePair g

end Gathered

namespace Settings

/-- The name of the table of this program in a settings file. -/
def tableName : String := "import-diagram"

/-- The value that a settings file contributes. -/
def contribution (path : Path) : Act Value := do
  let invalid {α : Type} (reason : String) : Act α :=
    .fail (.configuration ("Invalid config file '" ++ path.text ++ "': " ++ reason))
  let bytes ← try Act.readBytes path.text catch
    | .access fault text => invalid (fault.text text)
    | e => throw e
  let some text := Text.Utf8.decode? bytes | throw .undecodable
  match Toml.document text with
  -- A file without the tool's own table is the table itself.
  | .ok table => return (table.get? tableName).getD (.table table)
  -- Only a text that is no document is reported; a number or a nesting out of bounds escapes.
  | .error .malformed => invalid ((← get).wording .malformed)
  | .error (.longInteger digits) => throw (.longInteger (some digits))
  | .error .tooDeep => throw .tooDeep

/-- Writes what a settings file contributes over what is gathered. -/
def gatherFile (g : Gathered) (path : Path) : Act Gathered := do
  Act.ofExcept id (g.writeValue (← contribution path))

/-- The path of the home directory. It cannot be spelled with a tilde itself. -/
def homePath : Act Path := do
  let home ← expandHome "~"
  if home.toList.head? = some '~' then
    throw .noHome
  return Path.ofText home

/-! ## Environment -/

/-- The variable that holds a setting. -/
def variableName (key : String) : String :=
  "IMPORT_DIAGRAM_" ++ key.toUpper

/-- The first characters of a text, at most `count` of them. -/
def beginning (count : Nat) (s : String) : String :=
  String.ofList (s.toList.take count)

/-- The value of a setting in the text of a variable. Lists cannot come from there. -/
def parseVariable (key text : String) : Act (Option Value) := do
  let refuseText {α : Type} (reason : String) : Act α :=
    refuse key (.text text) ("from " ++ variableName key ++ ": " ++ reason)
  -- A list has no spelling in one variable.
  if listNames.contains key then
    return none
  else if key = "follow_multiline" || key = "tracked_only" then
    let word := text.toLower
    if ["true", "1", "yes", "on"].contains word then return some (.bool true)
    else if ["false", "0", "no", "off"].contains word then return some (.bool false)
    else refuseText ("expected true/false, got '" ++ text ++ "'")
  else if key = "subprocess_timeout_seconds" then
    match Text.readInteger text.toList with
    | .ok i => return some (.int i)
    | .error .malformed =>
      refuseText ("invalid literal for int() with base 10: " ++ beginning 200 (quotedString text))
    | .error (.long digits) => refuseText (Error.longIntegerText (some digits))
  else
    return some (.text text)

/-- The settings in the environment, in the order of their names. -/
def fromEnvironment : Act (List (String × Value)) := do
  let host ← get
  let found ← names.mapM fun key => do
    match host.environment.get? (variableName key) with
    | none => return none
    | some text => return (← parseVariable key text).map fun v => (key, v)
  return found.filterMap id

/-! ## All sources -/

/-- What the caller says, with the switches for verbosity worked in; quiet wins. -/
def withSwitches (said : Dictionary String Value) : Dictionary String Value :=
  let switch (d : Dictionary String Value) (name word : String) :=
    let isOn := (d.get? name).any (·.isTruthy)
    let d := if isOn then d.put "verbosity" (.text word) else d
    d.filter fun e => e.1 != name
  switch (switch said "verbose" "verbose") "quiet" "quiet"

/-- Whether a value is there at all. -/
def isSaid : Value → Bool
  | .none => false
  | _ => true

/-- Gathers settings from all sources. -/
def gather (file : Option String) (said : Dictionary String Value) : Act Gathered := do
  let mut g : Gathered := {}
  let global := (← homePath) / Path.ofText ".import-diagram.toml"
  if ← Act.pathExists global.text then
    g ← gatherFile g global
  let project := (← Act.workingPath) / Path.ofText "import-diagram.toml"
  if ← Act.pathExists project.text then
    g ← gatherFile g project
  -- The two files that are looked for may be missing, the one that was named may not.
  if let some file := file then
    let path := Path.ofText file
    if !(← Act.pathExists path.text) then
      .fail (.configuration ("Config file not found: " ++ path.text))
    g ← gatherFile g path
  g := g.write (← fromEnvironment)
  return g.write ((withSwitches said).filter fun e => isSaid e.2)

/-- The settings that all sources together stand for. A value that no setting can take makes the
settings unusable as a whole. -/
def load (file : Option String) (said : Dictionary String Value) : Act Settings := do
  let g ← gather file said
  let unusable {α : Type} (reason : String) : Act α :=
    .fail (.configuration ("Invalid configuration: " ++ reason))
  if g.hasNamelessEntry then
    unusable "keywords must be strings"
  try ofEntries g.entries catch
    -- The errors of a keyword or of its type are reported; the others are failures already, or
    -- escape.
    | .unknownSetting key => unusable (Error.unknownSettingText key)
    | .takenSetting key => unusable (Error.takenSettingText key)
    | .illTyped => do unusable ((← get).wording .illTyped)
    | e => throw e

end Settings

end ImportAtlas
