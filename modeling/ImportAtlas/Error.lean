import ImportAtlas.Failure
import ImportAtlas.Store.Table
import ImportAtlas.Tree.Basic

/-!
# Errors

Everything that can stop a step: failures of the program's own work, faults of the file system and
of the database, and input of the wrong form. Only failures are caught and shown as such; the
command line reports the others as unexpected.
-/

namespace ImportAtlas

/-- Why a console cannot show something: what kind of error it is, and what it says. -/
structure ScreenFault where
  name : String
  message : String
  deriving DecidableEq, Repr

/-- What can stop a step. -/
inductive Error where
  | failure (f : Failure)
  /-- A path cannot be used. -/
  | access (fault : AccessFault) (path : String)
  /-- A path holds a NUL. -/
  | nul
  /-- An exclusion pattern has no parts. -/
  | emptyPattern
  /-- Something is no import. -/
  | edge (fault : EdgeFault)
  /-- A relative path is asked of the empty path. -/
  | noPath
  /-- A link leads back to itself. -/
  | linkLoop (path : String)
  /-- The home directory is spelled as somebody's home. -/
  | noHome
  /-- No database is open. -/
  | notConnected
  /-- The database refuses what is asked of it. -/
  | database (fault : DatabaseFault)
  /-- The number fits into no column. -/
  | oversized
  /-- An integer has too many digits to be read, or to be written if their number is not given. -/
  | longInteger (digits : Option Nat)
  /-- A value is nested too deep to be read, or to be written. -/
  | tooDeep
  /-- A setting has no such name. -/
  | unknownSetting (key : String)
  /-- A setting has the name by which the settings themselves are known. -/
  | takenSetting (key : String)
  /-- A value is not of the type that is wanted. -/
  | illTyped
  /-- A value lacks an operation that is wanted. -/
  | unsupported
  /-- A table lacks an entry that is wanted. -/
  | noEntry
  /-- Settings are not made of pairs: the entry at `index` has `length` parts. -/
  | notAPair (index length : Nat)
  /-- A settings file is not UTF-8. -/
  | undecodable
  /-- A settings file is not a document of settings. -/
  | malformed
  /-- A text holds a half of a surrogate pair, which cannot be written. -/
  | unencodable
  /-- Something cannot be shown on the console. -/
  | screen (fault : ScreenFault)
  deriving Repr

namespace Error

/-- What is said of an integer with too many digits. -/
def longIntegerText (digits : Option Nat) : String :=
  "Exceeds the limit (" ++ toString Text.digitLimit ++ " digits) for integer string conversion"
    ++ (digits.map fun n => ": value has " ++ toString n ++ " digits").getD ""
    ++ "; use sys.set_int_max_str_digits() to increase the limit"

/-- What is said of a setting that does not exist. -/
def unknownSettingText (key : String) : String :=
  "DiagramConfig.__init__() got an unexpected keyword argument " ++ "'" ++ key ++ "'"

/-- What is said of a setting that has the name of the settings themselves. -/
def takenSettingText (key : String) : String :=
  "DiagramConfig.__init__() got multiple values for argument " ++ "'" ++ key ++ "'"

/-- What an error says. The words of some errors are not its own: they come from what was at work
when it arose, and `wording` has them. -/
def text (wording : Error → String) : Error → String
  | failure f => f.text
  | access fault path => fault.text path
  | nul => "embedded null byte"
  | emptyPattern => "empty pattern"
  | edge fault => fault.message
  | noPath => "no path specified"
  | linkLoop path => "Symlink loop from " ++ quotedString path
  | noHome => "Could not determine home directory."
  | notConnected => "GraphDB is not connected. Use as context manager or call connect()."
  | database fault => fault.message
  | longInteger digits => longIntegerText digits
  | unknownSetting key => unknownSettingText key
  | takenSetting key => takenSettingText key
  | notAPair index length =>
    "dictionary update sequence element #" ++ toString index ++ " has length " ++ toString length
      ++ "; 2 is required"
  | screen fault => fault.message
  -- The texts of these are the library's own.
  | e => wording e

end Error

end ImportAtlas
