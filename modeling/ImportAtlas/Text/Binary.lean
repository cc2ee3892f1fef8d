/-!
# Binary numbers

Numbers with a fraction are held as binary numbers of at most 53 digits. A fraction is rounded to
the nearest of them, a half to the even one. All arithmetic is on whole numbers, so nothing is lost
to rounding but what the format itself rounds.
-/

namespace ImportAtlas

/-- A binary number `digits * 2 ^ exponent`, or one that is too large to be held. -/
inductive Binary where
  | finite (digits : Nat) (exponent : Int)
  | infinite
  deriving DecidableEq, Repr

/-- `n / d` rounded to the nearest whole number, a half to the even one. -/
def roundDiv (n d : Nat) : Nat :=
  let q := n / d
  let r := n % d
  if 2 * r < d then q else if d < 2 * r then q + 1 else q + q % 2

/-- `n * b ^ e` as a fraction. -/
def scaled (n b : Nat) (e : Int) : Nat × Nat :=
  if 0 ≤ e then (n * Nat.pow b e.toNat, 1) else (n, Nat.pow b (-e).toNat)

namespace Binary

/-- The number `m * 2 ^ e` that is nearest to `n / d`, which is not zero, with at most `count`
binary digits in `m` and `e` at least `lowest`. -/
def nearest (count : Nat) (lowest : Int) (n d : Nat) : Nat × Int :=
  -- The estimate of the exponent is right or one too small.
  let estimate : Int := (Nat.log2 n : Int) - Nat.log2 d - count
  let round (e : Int) : Nat :=
    let (scaleTop, scaleBottom) := scaled 1 2 (-e)
    roundDiv (n * scaleTop) (d * scaleBottom)
  let low := max estimate lowest
  let e := if round low < Nat.pow 2 count then low else low + 1
  let m := round e
  if m < Nat.pow 2 count then (m, e) else (m / 2, e + 1)

/-- The binary number nearest to `n / d`. Exponents are at least `-1074`. -/
def ofFraction (n d : Nat) : Binary :=
  if n = 0 then
    .finite 0 (-1074)
  else
    let (m, e) := nearest 53 (-1074) n d
    if 971 < e then .infinite else .finite m e

/-- Whether a number is zero. -/
def isZero : Binary → Bool
  | finite m _ => m == 0
  | infinite => false

/-- Whether a number is below one. -/
def isBelowOne : Binary → Bool
  | finite m e => m < Nat.pow 2 (-e).toNat
  | infinite => false

/-- The whole number that a number is, if it is one. -/
def whole? : Binary → Option Nat
  | finite m e =>
    let (n, d) := scaled m 2 e
    if n % d = 0 then some (n / d) else none
  | infinite => none

end Binary

end ImportAtlas
