/-!
# Hexadecimal digits

The values of hexadecimal digits, small or capital, and the characters whose code points they write.
The digits of smaller bases are among them, so numbers of any base up to sixteen are read by these
values.
-/

namespace ImportAtlas.Text

/-- The value of a hexadecimal digit. -/
def hexValue? (c : Char) : Option Nat :=
  if '0' ≤ c && c ≤ '9' then some (c.toNat - '0'.toNat)
  else if 'a' ≤ c && c ≤ 'f' then some (c.toNat - 'a'.toNat + 10)
  else if 'A' ≤ c && c ≤ 'F' then some (c.toNat - 'A'.toNat + 10)
  else none

/-- The character with a code point written in hexadecimal digits. -/
def charOfHex? (digits : List Char) : Option Char := do
  let ds ← digits.mapM hexValue?
  let n := ds.foldl (fun n d => 16 * n + d) 0
  if n.isValidChar then some (Char.ofNat n) else none

/-! ## Numbers -/

/-- Whether `c` is a digit of a base. -/
def isDigitOf (base : Nat) (c : Char) : Bool :=
  (hexValue? c).any (· < base)

/-- The number written by digits of a base. -/
def ofDigits (base : Nat) (ds : List Char) : Nat :=
  ds.foldl (fun n d => base * n + (hexValue? d).getD 0) 0

/-- The sign at the start of a text: whether it is a minus, and the text behind it. -/
def signOf : List Char → Bool × List Char
  | '-' :: s => (true, s)
  | '+' :: s => (false, s)
  | s => (false, s)

end ImportAtlas.Text
