import ImportAtlas.Host
import ImportAtlas.Import.Kind

/-!
# Settings

The settings of a run, and how they are made from named values. Directories become canonical
paths. Values are checked in a fixed order, and the first one that is refused is reported: unknown
names, lists that are none, the project root, the scanned directories, extensions, local starts,
the timeout, the verbosity, the image file. A value that none of these checks looks at is kept
whatever its type is, and stops the work only where it is used.
-/

namespace ImportAtlas

/-- How much a run says. -/
inductive Verbosity where
  | quiet
  | normal
  | verbose
  deriving DecidableEq, Repr

/-- The name of a verbosity. -/
def Verbosity.name : Verbosity → String
  | quiet => "quiet"
  | normal => "normal"
  | verbose => "verbose"

/-- The verbosity with a name. -/
def Verbosity.ofName? (s : String) : Option Verbosity :=
  [quiet, normal, verbose].find? fun v => v.name == s

/-- The settings of a run. Where no check asks for a type, the value stays as it is given. -/
structure Settings where
  /-- The directory that relative paths are seen from. -/
  projectRoot : String
  /-- The directories that are scanned; the first one is the base of locators without a dot. -/
  scanDirectories : List String
  /-- The extensions of source files, without dots, in the order of trial. -/
  extensions : List String := ["js", "jsx", "ts", "tsx"]
  libraries : List Value := Classifier.defaultLibraries.map .text
  localStarts : List Value := Classifier.defaultLocalStarts.map .text
  /-- Whether statements go on to the end of a block. -/
  joinBlocks : Value := .bool true
  /-- Whether only files known to version control are scanned. -/
  trackedOnly : Value := .bool true
  excludePatterns : List Value :=
    ["node_modules/*", "dist/*", "build/*", "coverage/*", ".git/*", "vendor/*", "*.min.js",
      "*.bundle.js"].map .text
  databaseFile : Value := .text "diagram.sqlite3"
  dotFile : Value := .text "diagram.dot"
  imageFile : String := "diagram.pdf"
  layoutEngine : Value := .text "dot"
  dotCommand : Value := .text "dot"
  linkBase : Value := .none
  /-- The seconds that an external program may take. -/
  timeout : Value := .int 60
  verbosity : Verbosity := .normal
  deriving Repr

namespace Settings

/-- The names of settings whose values are lists, in the order of their checks. -/
def listNames : List String :=
  ["scan_dirs", "extensions", "known_libraries", "local_prefixes", "exclude_patterns"]

/-- The names of all settings. -/
def names : List String :=
  ["project_root", "scan_dirs", "extensions", "known_libraries", "local_prefixes",
    "follow_multiline", "tracked_only", "exclude_patterns", "database_file", "dot_file",
    "image_file", "layout_engine", "dot_command", "link_base", "subprocess_timeout_seconds",
    "verbosity"]

/-- The name that stands for the settings themselves, which no setting can have. -/
def ownName : String := "self"

/-- The base directory of locators without a dot: the first directory that is scanned. -/
def baseDirectory (s : Settings) : String :=
  s.scanDirectories.headD s.projectRoot

/-- The path of an output file, seen from the project root. -/
def outputPath (s : Settings) (file : String) : Path :=
  Path.ofText s.projectRoot / Path.ofText file

/-! ## Reading values -/

/-- Stops because a setting has a value that it cannot have. -/
def refuse {α : Type} (key : String) (value : Value) (reason : String) : Act α := do
  discard (Act.spell value)
  .fail (.invalidSetting key value reason)

/-- The text of a value that must be one. -/
def textOf : Value → Act String
  | .text s => pure s
  | _ => throw .illTyped

/-- The items of a list setting. A text is refused although it has parts; a table stands for its
keys. -/
def itemsOf (key : String) : Value → Act (List Value)
  | .text s => refuse key (.text s) "expected a list of strings"
  | .list items => pure items
  | .row items => pure items
  | .table entries => pure (entries.map fun e => .text e.1)
  | _ => throw .illTyped

/-- An extension without the dots in front of it. -/
def extensionOf : Value → Act String
  | .text s => pure (String.ofList (s.toList.dropWhile (· == '.')))
  | _ => throw .unsupported

/-- A directory without the slashes at its end. -/
def withoutSlash (directory : String) : String :=
  String.ofList (directory.toList.reverse.dropWhile (· == '/')).reverse

/-- The home directory, as it is spelled: the one that the environment names, or else the one in the
list of users, if they have one. -/
def homeDirectory : Act (Option String) := do
  let host ← get
  return ((host.environment.get? "HOME").or host.home).map withoutSlash

/-- A path in which a tilde at the start, alone or before the name of a user, stands for a home
directory. Nothing is put in for a user whose home is not known. -/
def expandHome (path : String) : Act String := do
  match path.toList with
  | '~' :: rest =>
    let host ← get
    let home ← match String.ofList (rest.takeWhile (· != '/')) with
      | "" => homeDirectory
      | user => pure ((host.homes.get? user).map withoutSlash)
    match home with
    -- A home that is unknown leaves the path as it was written.
    | none => return path
    | some home =>
      let expanded := home ++ String.ofList (rest.dropWhile (· != '/'))
      return if expanded = "" then "/" else expanded
  | _ => return path

/-- The spelling of `path` seen from the directory `base`. -/
def joinText (base path : String) : String :=
  if path.toList.head? = some '/' then path else base ++ "/" ++ path

/-- The canonical spelling of a path, seen from `base` if it is given, with the home directory put
in. -/
def directoryOf (base : Option String) (path : String) : Act String := do
  let expanded ← expandHome path
  return (← Act.canonical ((base.map fun base => joinText base expanded).getD expanded)).text

/-- The value of a setting, or the one that it has unless set. -/
def valueOf (entries : Dictionary String Value) (key : String) (unset : Value) : Value :=
  (entries.get? key).getD unset

/-- The settings that named values stand for. -/
def ofEntries (entries : Dictionary String Value) : Act Settings := do
  if let some entry := entries.find? fun e => !names.contains e.1 then
    throw (if entry.1 = ownName then .takenSetting entry.1 else .unknownSetting entry.1)
  let working := (← Act.workingPath).text
  let unset : Settings := { projectRoot := working, scanDirectories := [] }
  let value := valueOf entries
  let items (key : String) (unset : List Value) := itemsOf key (value key (.list unset))
  -- All lists are looked at before any of their items.
  let scanDirectories ← items "scan_dirs" []
  let extensions ← items "extensions" (unset.extensions.map .text)
  let libraries ← items "known_libraries" unset.libraries
  let localStarts ← items "local_prefixes" unset.localStarts
  let excludePatterns ← items "exclude_patterns" unset.excludePatterns
  let root ← directoryOf none (← textOf (value "project_root" (.text working)))
  let directories ←
    (if scanDirectories.isEmpty then [.text root] else scanDirectories).mapM fun d => do
      directoryOf (some root) (← textOf d)
  -- The dots go first, so an extension of nothing but dots is refused as empty.
  let bare ← extensions.mapM extensionOf
  if bare.isEmpty || bare.contains "" then
    refuse "extensions" (.row extensions) "need at least one extension"
  if localStarts.isEmpty || !localStarts.all (·.isTruthy) then
    refuse "local_prefixes" (.row localStarts) "prefixes must be non-empty"
  let timeout := value "subprocess_timeout_seconds" unset.timeout
  match timeout.isBelowOne? with
  | none => throw .illTyped
  | some true => refuse "subprocess_timeout_seconds" timeout "must be at least 1"
  | some false => pure ()
  let spoken := value "verbosity" (.text unset.verbosity.name)
  let verbosity ← match spoken with
    | .text s =>
      match Verbosity.ofName? s with
      | some v => pure v
      | none => refuse "verbosity" spoken "expected quiet/normal/verbose"
    | _ => refuse "verbosity" spoken "expected quiet/normal/verbose"
  let imageFile ← textOf (value "image_file" (.text unset.imageFile))
  if (Path.ofText imageFile).suffix = "" then
    refuse "image_file" (.text imageFile) "needs a suffix naming the image format"
  return {
    projectRoot := root
    scanDirectories := directories
    extensions := bare
    libraries
    localStarts
    joinBlocks := value "follow_multiline" unset.joinBlocks
    trackedOnly := value "tracked_only" unset.trackedOnly
    excludePatterns
    databaseFile := value "database_file" unset.databaseFile
    dotFile := value "dot_file" unset.dotFile
    imageFile
    layoutEngine := value "layout_engine" unset.layoutEngine
    dotCommand := value "dot_command" unset.dotCommand
    linkBase := value "link_base" unset.linkBase
    timeout
    verbosity }

end Settings

end ImportAtlas
