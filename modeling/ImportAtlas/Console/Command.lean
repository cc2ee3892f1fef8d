import ImportAtlas.Console.Argument
import ImportAtlas.Console.Screen
import ImportAtlas.Run

/-!
# The command line

`build` does a run and shows its summary; `imports` shows what the database of the last run holds.
The exit status is 0, or 1 after a failure has been shown, or 2 if the command line cannot be
understood, in which case nothing is done.
-/

namespace ImportAtlas

namespace Console

/-- What the program can be asked to do. -/
inductive Command where
  | build
  | imports
  deriving DecidableEq, Repr

/-- The command with a name. -/
def Command.ofName? : String → Option Command
  | "build" => some .build
  | "imports" => some .imports
  | _ => none

/-- The option that asks for help; it wins over everything else that can be understood. -/
def helpForm : OptionForm := ⟨"--help", none, false⟩

/-- The options of the program itself. -/
def programForms : List OptionForm :=
  [⟨"--version", none, false⟩, helpForm]

/-- The options of a command. -/
def Command.forms : Command → List OptionForm
  | build =>
    [⟨"--scan-dir", some 's', true⟩, ⟨"--ext", some 'e', true⟩, ⟨"--output", some 'o', true⟩,
      ⟨"--dot-file", none, true⟩, ⟨"--db-file", none, true⟩, ⟨"--no-db", none, false⟩,
      ⟨"--no-render", none, false⟩, ⟨"--all-files", none, false⟩, ⟨"--no-multiline", none, false⟩,
      ⟨"--config", some 'c', true⟩, ⟨"--verbose", some 'v', false⟩, ⟨"--quiet", some 'q', false⟩,
      ⟨"--log-file", none, true⟩, helpForm]
  | imports =>
    [⟨"--file", some 'f', true⟩, ⟨"--kind", some 'k', true⟩, ⟨"--db-file", none, true⟩,
      ⟨"--config", some 'c', true⟩, ⟨"--verbose", some 'v', false⟩, helpForm]

/-- The version of the program. -/
def version : String := "0.1.0"

/-! ## Arguments in use -/

/-- The folder of the project: the working directory if no word names it. -/
def projectOf (a : Arguments) : Path :=
  Path.ofText (a.words.headD "")

/-- The settings file, if one is given. -/
def configOf (a : Arguments) : Option Path :=
  (a.value? "--config").map Path.ofText

/-- The file for log records, if one is given. -/
def logFileOf (a : Arguments) : Option Path :=
  (a.value? "--log-file").map Path.ofText

/-- The entry that a path on the command line leads to. -/
def given (path : Path) : Act (Option (Entry Content)) := do
  let host ← get
  return (host.tree.lookup host.folder path.text).toOption.map (·.2)

/-- What is wrong with the settings file, if one is given. -/
def configFault? (a : Arguments) : Act (Option UsageFault) := do
  let some config := configOf a | return none
  match ← given config with
  | some (.file _) => return none
  | _ => return some (.noFile config.text)

/-- What is wrong with the words and paths of a command line. The settings file is looked at before
the project. -/
def usageFault? (a : Arguments) : Act (Option UsageFault) := do
  if let some fault ← configFault? a then
    return some fault
  match ← given (projectOf a) with
  | some .folder => return a.words[1]?.map .extraArgument
  | _ => return some (.noFolder (projectOf a).text)

/-- An option as a setting, if it is given. -/
def setting (a : Arguments) (option key : String) : List (String × Value) :=
  ((a.value? option).map fun s => (key, .text s)).toList

/-- An option that may be repeated as a setting, if it is given. -/
def listSetting (a : Arguments) (option key : String) : List (String × Value) :=
  match a.values option with
  | [] => []
  | texts => [(key, .list (texts.map .text))]

/-- A setting that a switch turns off. -/
def offSetting (a : Arguments) (option key : String) : List (String × Value) :=
  if a.has option then [(key, .bool false)] else []

/-- The settings that arguments name. -/
def settingsOf (a : Arguments) : List (String × Value) :=
  [("project_root", .text (projectOf a).text), ("verbose", .bool (a.has "--verbose")),
    ("quiet", .bool (a.has "--quiet"))]
    -- Only what the arguments say is passed on; the rest is left to the other sources.
    ++ listSetting a "--scan-dir" "scan_dirs" ++ listSetting a "--ext" "extensions"
    ++ setting a "--output" "image_file" ++ setting a "--dot-file" "dot_file"
    ++ setting a "--db-file" "database_file" ++ offSetting a "--all-files" "tracked_only"
    ++ offSetting a "--no-multiline" "follow_multiline"

/-- The settings of a command. -/
def loadSettings (a : Arguments) : Act Settings :=
  Settings.load ((configOf a).map (·.text)) (settingsOf a)

/-! ## Build -/

/-- The table that sums a run up. -/
def summaryTable (r : RunResult) : Table where
  title := "Import graph"
  columns := [.left, .right]
  rows := (labels.zip r.summary).map fun (label, _, n) => [label, toString n]
where
  /-- The labels of the numbers that sum a run up. -/
  labels : List String :=
    ["Files", "Imports", "  local", "  library", "  unclassified", "Drawn edges",
      "Unresolved local", "Cycles"]

/-- The line that shows a cycle. -/
def cycleLine (c : CycleGroup) : String :=
  "  " ++ " ↔ ".intercalate c.files

/-- The line that shows where an output is. -/
def pathLine (label : String) (p : Path) : String :=
  label ++ ": " ++ styled "green" p.text

/-- The line that shows an error. -/
def errorLine (label text : String) : String :=
  styled "red" label ++ " " ++ text

section Commands

variable (screen : Screen)

/-- Shows what a run has produced; its cycles only if `verbose` is set. -/
def report (r : RunResult) (verbose : Bool) : Act Unit := do
  print screen (.table (summaryTable r))
  if verbose && !r.cycles.isEmpty then
    print screen (.text "")
    print screen (.text (styled "bold yellow" "Import cycles"))
    r.cycles.forM fun c => print screen (.text (cycleLine c))
  [("Database", r.databasePath), ("Graph description", r.dotPath), ("Image", r.imagePath)].forM
    fun (label, path) => path.toList.forM fun p => print screen (.text (pathLine label p))

/-- Shows a failure; the exit status is 1. -/
def showFailure (f : Failure) : Act Nat := do
  print screen (.text (errorLine "Error:" f.text))
  return 1

/-- Does a run as the arguments ask. No error but one of the screen, or of the log, gets out. -/
def build (a : Arguments) : Act Nat := do
  let verbose := a.has "--verbose"
  let quiet := a.has "--quiet"
  Act.startLog (LogLevel.ofVerbosity verbose quiet)
    ((logFileOf a).map (·.text))
  try
    let settings ← loadSettings a
    let result ← run settings { persist := !a.has "--no-db", render := !a.has "--no-render" }
    if !quiet then
      report screen result verbose
    return 0
  catch
    | .failure f => showFailure screen f
    -- What is not expected is logged before it is told.
    | e => do
      Act.log .error rootChannel "Unexpected error"
      print screen (.text (errorLine "Unexpected error:" (e.text (← get).wording)))
      return 1

/-! ## Imports -/

/-- The words that choose imports by kind. -/
def kindWords : List String :=
  ["local", "lib", "none"]

/-- The table of imports. What is missing is shown as a dash. -/
def importsTable (rows : List Store.ImportListing) : Table where
  title := toString rows.length ++ " imports"
  columns := [.left, .left, .left, .left]
  headings := some ["File", "Locator", "Kind", "Target"]
  rows := rows.map fun row =>
    [row.importer, row.locator, (row.kind.map (·.tag)).getD "-",
      (row.target.filter (· != "")).getD "-"]

/-- The imports that the arguments ask for, those of one file if `file` names it. Where a failure
keeps them from being found it is shown, and there is an exit status instead. -/
def findImports (a : Arguments) (file : Option Text.Raw) :
    Act (Except Nat (List Store.ImportListing)) := do
  try
    let settings ← loadSettings a
    let path ← settings.outputFile settings.databaseFile
    let rows ← Store.session path false (Store.query file (a.value? "--kind"))
    pure (.ok rows)
  catch
    -- Only a failure of the program's own is told; any other error escapes.
    | .failure f => do
      let status ← showFailure screen f
      pure (.error status)
    | e => throw e

/-- Shows imports as the arguments ask, those of one file if `file` names it. -/
def imports (a : Arguments) (file : Option Text.Raw) : Act Nat := do
  Act.startLog (LogLevel.ofVerbosity (a.has "--verbose") false) none
  -- The kind is checked before the settings are read.
  if !(a.value? "--kind").all kindWords.contains then
    print screen (.text (errorLine "Error:"
      ("--kind must be one of " ++ ", ".intercalate kindWords)))
    return 1
  match ← findImports screen a file with
  | .error status => return status
  | .ok rows => do
    print screen (.table (importsTable rows))
    return 0

/-! ## All commands -/

/-- Does a command with its arguments. -/
def Command.perform (c : Command) (arguments : List String) : Act Nat := do
  match Arguments.read c.forms true arguments with
  | .error _ => return 2
  | .ok a =>
    -- Help comes before any complaint about the other arguments.
    if a.has helpForm.name then
      return 0
    if (← usageFault? a).isSome then
      return 2
    match c with
    | .build => Console.build screen a
    | .imports => Console.imports screen a ((a.value? "--file").map .ofText)

/-- The exit status for arguments that start with a word that is no command. A word may look like an
option if two dashes come before it; then it is read again as one, and a call for help is heard. -/
def unknownCommand (arguments : List String) : Nat :=
  match Arguments.read programForms false arguments with
  | .ok a => if a.has helpForm.name then 0 else 2
  | .error _ => 2

/-- Does what the arguments of the program ask. The version is shown before a command is looked at,
but only if there is such a command. -/
def perform (arguments : List String) : Act Nat := do
  match Arguments.read programForms false arguments with
  | .error _ => return 2
  | .ok a =>
    if a.has helpForm.name then
      return 0
    -- The version is shown even when a command is named, and then the command is not run.
    let showVersion : Act Nat := do
      print screen (.text (styled "bold cyan" "import-diagram" ++ " version " ++
        styled "green" version))
      return 0
    match a.words with
    | [] => if a.has "--version" then showVersion else return 0
    | name :: rest =>
      match Command.ofName? name with
      | none => return unknownCommand a.words
      | some c => if a.has "--version" then showVersion else c.perform screen rest

end Commands

/-- How a use of the program ends. -/
structure Ending where
  /-- The exit status. -/
  status : Nat
  /-- The lines shown on the console. -/
  printed : List String
  /-- The error that got out, if one did; the exit status is then 1. -/
  escaped : Option Error := none

/-- Uses the program once. -/
def use (screen : Screen) (arguments : List String) (host : Host) : Ending × Host :=
  match (perform screen arguments).run { host with printed := [] } with
  | .ok status host => ({ status, printed := host.printed }, host)
  | .error e host => ({ status := 1, printed := host.printed, escaped := some e }, host)

end Console

end ImportAtlas
