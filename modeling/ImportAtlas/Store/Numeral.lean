import ImportAtlas.Text.Binary
import ImportAtlas.Text.Hex

/-!
# Numbers in texts

A text that goes to a number column may spell a number: a sign, digits, perhaps a point with more
digits and a power of ten, and blanks around all of it. Digits alone are read as they stand. With a
point or a power the number is held as a binary number, for which no more than nineteen of its
digits are looked at, and it is a whole number only if that is one.
-/

namespace ImportAtlas

namespace Store

/-- Whether a number fits into a column: it has at most 63 bits and a sign. -/
def fits (i : Int) : Bool :=
  -9223372036854775808 ≤ i && i < 9223372036854775808

/-- A number as it is spelled. -/
structure Numeral where
  isNegative : Bool
  /-- The digits in front of the point. -/
  whole : List Char
  /-- The digits behind the point, if there is one. -/
  fraction : Option (List Char)
  /-- The digits of the power of ten and whether it is negative, if there is one. -/
  power : Option (Bool × List Char)
  deriving DecidableEq, Repr

namespace Numeral

/-! ## Spelling -/

/-- Whether `c` may stand around a number. -/
def isMargin (c : Char) : Bool :=
  c == ' ' || (9 ≤ c.toNat && c.toNat ≤ 13)

/-- The digits behind a point at the start of a text, and the text behind them. -/
def fractionOf : List Char → Option (List Char) × List Char
  | '.' :: s => (some (s.takeWhile Char.isDigit), s.dropWhile Char.isDigit)
  | s => (none, s)

/-- The power of ten that a text is. -/
def powerOf? (s : List Char) : Option (Bool × List Char) :=
  match s with
  | [] => none
  | mark :: s =>
    let (isNegative, ds) := Text.signOf s
    if (mark == 'e' || mark == 'E') && !ds.isEmpty && ds.all Char.isDigit then
      some (isNegative, ds)
    else
      none

/-- The number that a text spells. -/
def ofText? (s : String) : Option Numeral :=
  let inner := ((s.toList.dropWhile isMargin).reverse.dropWhile isMargin).reverse
  let (isNegative, s) := Text.signOf inner
  let whole := s.takeWhile Char.isDigit
  let (fraction, s) := fractionOf (s.dropWhile Char.isDigit)
  let power := powerOf? s
  if (whole ++ fraction.getD []).isEmpty || (power.isNone && !s.isEmpty) then none
  else some { isNegative, whole, fraction, power }

/-! ## Value -/

/-- A number with one more digit behind it. -/
def withDigit (m : Nat) (c : Char) : Nat :=
  10 * m + (c.toNat - '0'.toNat)

/-- As long as the digits of a number are below this, one more of them is looked at. -/
def digitsLimit : Nat := 922337203685477579

/-- The digits of a number that are looked at, with their power of ten. -/
def leading (n : Numeral) : Nat × Int :=
  let front := n.whole.foldl (fun (m, e) c =>
    if m < digitsLimit then (withDigit m c, e) else (m, e + 1)) ((0, 0) : Nat × Int)
  (n.fraction.getD []).foldl (fun (m, e) c =>
    if m < digitsLimit then (withDigit m c, e - 1) else (m, e)) front

/-- The power of ten behind its mark. Powers past ten thousand are all alike. -/
def powerValue (n : Numeral) : Int :=
  match n.power with
  | none => 0
  | some (isNegative, ds) =>
    let p := ds.foldl (fun p c => if p < 10000 then withDigit p c else 10000) 0
    if isNegative then -Int.ofNat p else Int.ofNat p

/-- Takes powers of ten into a number as long as it has room for them, which it has for all of them
if it fits into a column at all. -/
def raise? : Nat → Nat → Option Nat
  | m, 0 => some m
  | m, e + 1 => if m ≤ digitsLimit then raise? (10 * m) e else none

/-- Takes zeros at the end of a number off and out of a power by which it is divided. -/
def lower : Nat → Nat → Nat × Nat
  | m, 0 => (m, 0)
  | m, e + 1 => if m % 10 = 0 then lower (m / 10) e else (m, e + 1)

/-- A power by which dividing leaves nothing of any number. -/
def vanishingPower : Nat := 342

/-- The binary number nearest to `m / 10 ^ e`, found by way of one of 64 digits. -/
def quotient (m e : Nat) : Binary :=
  if vanishingPower ≤ e then .ofFraction 0 1
  else
    let (digits, power) := Binary.nearest 64 (-16445) m (Nat.pow 10 e)
    let (n, d) := scaled digits 2 power
    Binary.ofFraction n d

/-- The binary number that is held for a number, without its sign, unless it is too large for a
column. -/
def magnitude? (n : Numeral) : Option Binary :=
  let (m, shift) := n.leading
  let e := n.powerValue + shift
  if m = 0 then
    some (.ofFraction 0 1)
  else if 0 ≤ e then
    (raise? m e.toNat).map fun m => .ofFraction m 1
  else
    let (m, e) := lower m (-e).toNat
    some (if e = 0 then .ofFraction m 1 else quotient m e)

/-- The whole number that a number is, if it is one that fits into a column. -/
def integer? (n : Numeral) : Option Int :=
  let magnitude := match n.fraction, n.power with
    | none, none => some (Text.ofDigits 10 n.whole)
    | _, _ => (n.magnitude?.bind Binary.whole?).filter fun m => fits m
  (magnitude.map fun m => if n.isNegative then -Int.ofNat m else Int.ofNat m).filter fits

end Numeral

end Store

end ImportAtlas
