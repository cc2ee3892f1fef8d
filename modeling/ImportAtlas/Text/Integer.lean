import ImportAtlas.Text.Blank
import ImportAtlas.Text.Digit

/-!
# Integers in text

An integer is written as an optional sign and digits of any script, with single underscores
between digits, and may be set off by white space. The information separators count as white
space between words but not here. Integers of more than 4300 digits are neither read nor written.
-/

namespace ImportAtlas.Text

/-- How many decimal digits an integer may have to be read or written. -/
def digitLimit : Nat := 4300

/-- Whether an integer has too many digits to be written. -/
def isLong (i : Int) : Bool :=
  Nat.pow 10 digitLimit ≤ i.natAbs

/-- Why a text is not read as an integer. -/
inductive IntegerFault where
  | malformed
  /-- It has more digits than are read. -/
  | long (digits : Nat)
  deriving DecidableEq, Repr

/-- White space that may surround an integer. -/
def isIntegerPadding (c : Char) : Bool :=
  isBlank c && !inRanges [(0x1C, 0x1F)] c

/-- Whether `c` is a decimal digit of any script. -/
def isDigit (c : Char) : Bool :=
  (digitValue? c).isSome

/-- The digits of a run in which single underscores may stand between digits. -/
def digitsOfRun? (run : List Char) : Option (List Nat) :=
  let groups := run.splitOn '_'
  if groups.any (·.isEmpty) then none else groups.flatten.mapM digitValue?

/-- The number that digits write. Too many digits are found before anything behind them is. -/
def readNat (s : List Char) : Except IntegerFault Nat :=
  let inRun (c : Char) : Bool := isDigit c || c == '_'
  match digitsOfRun? (s.takeWhile inRun) with
  | none => .error .malformed
  | some ds =>
    -- A run that is too long is refused before what stands behind it is read.
    if digitLimit < ds.length then .error (.long ds.length)
    else if (s.dropWhile inRun).all isIntegerPadding then
      .ok (ds.foldl (fun n d => 10 * n + d) 0)
    else .error .malformed

/-- The integer written by `s`. -/
def readInteger (s : List Char) : Except IntegerFault Int :=
  match s.dropWhile isIntegerPadding with
  | '-' :: ds => (readNat ds).map fun n => -(n : Int)
  | '+' :: ds => (readNat ds).map fun n => (n : Int)
  | ds => (readNat ds).map fun n => (n : Int)

end ImportAtlas.Text
