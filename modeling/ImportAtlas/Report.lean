import ImportAtlas.Setting.Value
import ImportAtlas.Text.Blank

/-!
# Reports

A report is what the user is told of a failure: a message, and details by name. Names and details
may be any values. Its text is the message with the details behind it in parentheses.
-/

namespace ImportAtlas

/-- The families of failures. Every family but `general` has its own kinds of failures. -/
inductive FailureFamily where
  | general
  | analysis
  | graph
  | configuration
  deriving DecidableEq, Repr

/-- The kinds of failures. -/
inductive FailureKind where
  /-- A failure of a family that has no more to say than a message. -/
  | plain (family : FailureFamily)
  | fileAccess
  | noLocator
  | duplicateFile
  | duplicateImport
  | unknownFile
  | invalidPath
  | invalidSetting
  | inventory
  | store
  | rendering
  deriving DecidableEq, Repr

/-- The family of a kind of failures. -/
def FailureKind.family : FailureKind → FailureFamily
  | plain family => family
  | fileAccess | noLocator => .analysis
  | duplicateFile | duplicateImport | unknownFile => .graph
  | invalidPath | invalidSetting => .configuration
  | inventory | store | rendering => .general

/-- What is said of a failure. -/
structure Report where
  kind : FailureKind
  message : Value
  /-- Names with their values, in order; no two of the names are the same. -/
  details : List (Value × Value)
  deriving Repr

namespace Report

/-- A detail under a name. -/
def detail (name : String) (value : Value) : Value × Value :=
  (.text name, value)

/-- Writes a detail over the one of the same name, or behind all others. -/
def putDetail : List (Value × Value) → Value × Value → List (Value × Value)
  | [], (name, value) => [(name, value)]
  | (other, old) :: details, (name, value) =>
    if other.isSameName name then (other, value) :: details
    else (other, old) :: putDetail details (name, value)

/-- A report with details from pairs in which a name may come again; its last value counts. -/
def ofPairs (kind : FailureKind) (message : Value) (pairs : List (Value × Value)) : Report where
  kind
  message
  details := pairs.foldl putDetail []

/-- Of a file that cannot be read or written. -/
def fileAccess (path reason : Value) : Report where
  kind := .fileAccess
  message := .text ("Cannot access file: " ++ path.shown)
  details := [detail "filepath" (.text path.shown), detail "reason" reason]

/-- Of a statement off which no locator can be read. -/
def noLocator (statement : String) (reason : Value) : Report where
  kind := .noLocator
  message := .text ("Cannot extract locator from import line: "
    ++ quotedString (String.ofList (Text.trim statement.toList)))
  details := [detail "reason" reason]

/-- Of a file that is in the graph already. -/
def duplicateFile (path : Value) : Report where
  kind := .duplicateFile
  message := .text ("File already in graph: " ++ path.shown)
  details := [detail "abs_path" path]

/-- Of an import that is in the graph already. -/
def duplicateImport (importer locator : Value) : Report where
  kind := .duplicateImport
  message := .text ("Import already recorded: " ++ importer.shown ++ " -> " ++ locator.shown)
  details := [detail "importer" importer, detail "locator" locator]

/-- Of an id that no file has. A locator is named if there is one. -/
def unknownFile (id importer locator : Value) : Report where
  kind := .unknownFile
  message := .text ("Edge references unknown file id " ++ id.shown)
  details := [detail "reference" (.text id.shown), detail "importer" importer] ++
    match locator with
    | .none => []
    | locator => [detail "locator" locator]

/-- Of a path that is not one of a source file. -/
def invalidPath (path reason : Value) : Report where
  kind := .invalidPath
  message := .text ("Invalid path: " ++ path.shown)
  details := [detail "path" (.text path.shown), detail "reason" reason]

/-- Of a value that a setting cannot have. -/
def invalidSetting (key value reason : Value) : Report where
  kind := .invalidSetting
  message := .text ("Invalid configuration for " ++ key.shown ++ ": " ++ value.shown)
  details := [detail "key" key, detail "value" (.text value.shown), detail "reason" reason]

/-- Of a directory whose files cannot be listed. -/
def inventory (directory reason : Value) : Report where
  kind := .inventory
  message := .text ("Cannot list source files in " ++ directory.shown)
  details := [detail "directory" (.text directory.shown), detail "reason" reason]

/-- Of a database that cannot be read or written. Its place is named if there is one. -/
def store (reason place : Value) : Report where
  kind := .store
  message := .text ("Graph database error: " ++ reason.shown)
  details := detail "reason" reason ::
    if place.isTruthy then [detail "db_path" (.text place.shown)] else []

/-- Of an image that cannot be made. The command is named if there is one. -/
def rendering (reason command : Value) : Report where
  kind := .rendering
  message := .text ("Rendering failed: " ++ reason.shown)
  details := detail "reason" reason :: if command.isTruthy then [detail "command" command] else []

/-- Whether the report can be put in words: a message that stands alone must be a text. -/
def hasText (r : Report) : Bool :=
  !r.details.isEmpty || r.message.isText

/-- The message with the details behind it. -/
def text (r : Report) : String :=
  if r.details.isEmpty then
    r.message.shown
  else
    let details := r.details.map fun (name, value) => name.shown ++ "=" ++ value.shown
    r.message.shown ++ " (" ++ ", ".intercalate details ++ ")"

end Report

end ImportAtlas
