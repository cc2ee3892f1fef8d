import ImportAtlas.Text.Binary

/-!
# The shortest decimal of a binary number

A binary number is shown by the fewest decimal digits that are read back as the same binary number;
of two such decimals the nearer one, and of two that are equally near the even one.
-/

namespace ImportAtlas.Text.Decimal

/-- The number of decimal digits of `n`. -/
def digitCount (n : Nat) : Nat :=
  (Nat.toDigits 10 n).length

/-- The power of ten of the first digit of `n / d`, which is not zero. -/
def leadingPower (n d : Nat) : Int :=
  let p : Int := (digitCount n : Int) - digitCount d
  let (top, bottom) := scaled d 10 p
  if n * bottom < top then p - 1 else p

/-- The decimals of `count` digits on both sides of `n / d`, the nearer one first; of two that are
equally near, the even one. -/
def neighbours (n d count : Nat) : List (Nat × Int) :=
  let e := leadingPower n d - count + 1
  let (top, bottom) := scaled 1 10 (-e)
  let num := n * top
  let den := d * bottom
  let below := num / den
  -- The nearer of the two comes first.
  if roundDiv num den = below then [(below, e), (below + 1, e)] else [(below + 1, e), (below, e)]

/-- Whether the decimal `m * 10 ^ e` is read as `b`. -/
def readsAs (b : Binary) (m : Nat) (e : Int) : Bool :=
  let (n, d) := scaled m 10 e
  Binary.ofFraction n d == b

/-- The shortest decimal of a binary number: digits and a power of ten. Seventeen digits are always
enough. -/
def shortest (m : Nat) (e : Int) : Nat × Int :=
  if m = 0 then
    (0, 0)
  else
    let (n, d) := scaled m 2 e
    -- With seventeen digits every number is told from its neighbours, so a candidate is found.
    let candidates := (List.range 17).flatMap fun k => neighbours n d (k + 1)
    (candidates.find? fun c => readsAs (.finite m e) c.1 c.2).getD (0, 0)

/-- Digits and a power of ten without the zeros at the end of the digits. -/
def dropZeros : Nat → Nat → Int → Nat × Int
  | 0, m, e => (m, e)
  | fuel + 1, m, e => if m % 10 = 0 && m != 0 then dropZeros fuel (m / 10) (e + 1) else (m, e)

/-- The spelling of a decimal: positional between `1e-4` and `1e16`, else with an exponent of at
least two digits. -/
def spell (m : Nat) (e : Int) : List Char :=
  let (m, e) := dropZeros 20 m e
  let ds := Nat.toDigits 10 m
  -- How many digits stand before the point.
  let point : Int := ds.length + e
  if m = 0 then
    "0.0".toList
  else if -4 < point && point ≤ 16 then
    if point ≤ 0 then
      "0.".toList ++ List.replicate (-point).toNat '0' ++ ds
    else
      let whole := ds ++ List.replicate (point.toNat - ds.length) '0'
      let fraction := ds.drop point.toNat
      whole.take point.toNat ++ '.' :: (if fraction.isEmpty then ['0'] else fraction)
  else
    let power := point - 1
    let sign := if power < 0 then '-' else '+'
    let magnitude := Nat.toDigits 10 power.natAbs
    let padding := List.replicate (2 - magnitude.length) '0'
    let fraction := ds.drop 1
    ds.take 1 ++ (if fraction.isEmpty then [] else '.' :: fraction) ++
      'e' :: sign :: padding ++ magnitude

/-- The binary number that the decimal `m * 10 ^ e` is read as. Powers far outside the range are
settled without computing them. -/
def read (m : Nat) (e : Int) : Binary :=
  let size : Int := digitCount m + e
  if m = 0 ∨ size < -400 then .finite 0 (-1074)
  else if 400 < size then .infinite
  else
    let (n, d) := scaled m 10 e
    Binary.ofFraction n d

/-- The spelling of a binary number. -/
def spelling : Binary → List Char
  | .infinite => "inf".toList
  | .finite bits power =>
    let (m, e) := shortest bits power
    spell m e

end ImportAtlas.Text.Decimal
