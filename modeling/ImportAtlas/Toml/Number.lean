import ImportAtlas.Setting.Value
import ImportAtlas.Toml.Text

/-!
# Numbers

Whole numbers are written in decimal, with an optional sign and no leading zero, or with a base
mark in hexadecimal, octal or binary. A fraction or an exponent makes a number a binary fraction.
Single underscores may stand between digits.
-/

namespace ImportAtlas.Toml

/-- The digits at the start of a text that goes on with digits, single underscores between
them. -/
def moreDigits (isDigit : Char → Bool) : List Char → List Char × List Char
  | '_' :: c :: s =>
    if isDigit c then
      let r := moreDigits isDigit s
      (c :: r.1, r.2)
    else
      -- An underline stands between two digits only.
      ([], '_' :: c :: s)
  | c :: s =>
    if isDigit c then
      let r := moreDigits isDigit s
      (c :: r.1, r.2)
    else
      ([], c :: s)
  | [] => ([], [])

/-- A run of at least one digit, single underscores between them. -/
def digitRun? (isDigit : Char → Bool) : List Char → Option (List Char × List Char)
  | c :: s =>
    if isDigit c then
      let r := moreDigits isDigit s
      some (c :: r.1, r.2)
    else
      none
  | [] => none

/-- A number with a base mark. -/
def markedInteger? : List Char → Option (Nat × List Char)
  | '0' :: 'x' :: s => (digitRun? (Text.isDigitOf 16) s).map fun r => (Text.ofDigits 16 r.1, r.2)
  | '0' :: 'o' :: s => (digitRun? (Text.isDigitOf 8) s).map fun r => (Text.ofDigits 8 r.1, r.2)
  | '0' :: 'b' :: s => (digitRun? (Text.isDigitOf 2) s).map fun r => (Text.ofDigits 2 r.1, r.2)
  | _ => none

/-- The digits before the point of a decimal number. A zero stands alone. -/
def wholePart? : List Char → Option (List Char × List Char)
  | '0' :: s => some (['0'], s)
  | s => digitRun? (Text.isDigitOf 10) s

/-- The digits of a fraction behind its point. -/
def fractionPart? : List Char → Option (List Char × List Char)
  | '.' :: s => digitRun? (Text.isDigitOf 10) s
  | _ => none

/-- The power of ten behind its mark. -/
def exponentPart? : List Char → Option (Int × List Char)
  | c :: s =>
    if c == 'e' || c == 'E' then
      let (negative, s) := Text.signOf s
      (digitRun? (Text.isDigitOf 10) s).map fun r =>
        let n : Int := Text.ofDigits 10 r.1
        (if negative then -n else n, r.2)
    else
      none
  | [] => none

/-- The value of a binary fraction. -/
def floatingValue (negative : Bool) (digits : Nat) (power : Int) : Value :=
  .floating (.number negative (Text.Decimal.read digits power))

/-- The value of a whole number in decimal digits, which must not be too many. -/
def wholeValue (negative : Bool) (digits : List Char) : Reading Value :=
  let n : Int := Text.ofDigits 10 digits
  if Text.digitLimit < digits.length then .error (.longInteger digits.length)
  else .ok (.int (if negative then -n else n))

/-- A decimal number. -/
def decimalNumber (s : List Char) : Reading (Value × List Char) := do
  let (negative, s) := Text.signOf s
  let (whole, s) ← wholePart? s
  let fraction := fractionPart? s
  let s := (fraction.map (·.2)).getD s
  let power := exponentPart? s
  let rest := (power.map (·.2)).getD s
  if fraction.isNone && power.isNone then
    return (← wholeValue negative whole, rest)
  else
    let ds := (fraction.map (·.1)).getD []
    let exponent := (power.map (·.1)).getD 0 - ds.length
    return (floatingValue negative (Text.ofDigits 10 (whole ++ ds)) exponent, rest)

/-- A number without digits: infinity, or none at all. -/
def specialNumber? (s : List Char) : Option (Value × List Char) :=
  let (negative, t) := Text.signOf s
  match t with
  | 'i' :: 'n' :: 'f' :: rest => some (.floating (.number negative .infinite), rest)
  | 'n' :: 'a' :: 'n' :: rest => some (.floating .undefined, rest)
  | _ => none

/-- A number in one of its forms. -/
def number (s : List Char) : Reading (Value × List Char) :=
  match markedInteger? s, specialNumber? s with
  | some (n, rest), _ => .ok (.int n, rest)
  | none, some r => .ok r
  | none, none => decimalNumber s

end ImportAtlas.Toml
