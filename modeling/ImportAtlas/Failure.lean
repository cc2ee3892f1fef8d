import ImportAtlas.Graph.Basic
import ImportAtlas.Report

/-!
# Failures

What can go wrong in the work of this program itself, as opposed to a fault in how it is called.
Each failure has a report, and its text is that of the report.
-/

namespace ImportAtlas

/-- A failure that is reported to the user. -/
inductive Failure where
  /-- A failure of a family that has no more to say than a message. -/
  | plain (family : FailureFamily) (message : String)
  /-- A file cannot be read or written. -/
  | fileAccess (path reason : String)
  /-- No locator can be read off a statement. -/
  | noLocator (statement reason : String)
  /-- The graph refuses a file, an import or a question. -/
  | graph (fault : GraphFault)
  /-- A path is not one of a source file. -/
  | invalidPath (path reason : String)
  /-- A setting has a value that it cannot have. -/
  | invalidSetting (key : String) (value : Value) (reason : String)
  /-- The files of a directory cannot be listed. -/
  | inventory (directory reason : String)
  /-- The database cannot be read or written. -/
  | store (reason : String) (place : Option String)
  /-- No image can be made. -/
  | rendering (reason : String) (command : Option String)
  deriving Repr

namespace Failure

/-- The settings cannot be used, for the reason in the message. -/
def configuration (message : String) : Failure :=
  .plain .configuration message

/-- A text that may be missing, as a value. -/
def optionalText (text : Option String) : Value :=
  (text.map Value.text).getD .none

/-- The report of a failure. -/
def report : Failure → Report
  | plain family message => ⟨.plain family, .text message, []⟩
  | fileAccess path reason => .fileAccess (.text path) (.text reason)
  | noLocator statement reason => .noLocator statement (.text reason)
  -- A fault of the graph is reported as the failure of its own kind.
  | graph (.duplicateFile path) => .duplicateFile (.text path)
  | graph (.duplicateImport importer locator) => .duplicateImport (.text importer) (.text locator)
  | graph (.unknownFile id importer locator) =>
    .unknownFile (.int id) (.text importer) (optionalText locator)
  | invalidPath path reason => .invalidPath (.text path) (.text reason)
  | invalidSetting key value reason => .invalidSetting (.text key) value (.text reason)
  | inventory directory reason => .inventory (.text directory) (.text reason)
  | store reason place => .store (.text reason) (optionalText place)
  | rendering reason command => .rendering (.text reason) (optionalText command)

/-- What is said of a failure. -/
def text (f : Failure) : String :=
  f.report.text

/-- Every failure can be put in words. -/
theorem hasText_report (f : Failure) : f.report.hasText = true := by
  cases f with
  | graph fault => cases fault <;> rfl
  | _ => rfl

end Failure

end ImportAtlas
