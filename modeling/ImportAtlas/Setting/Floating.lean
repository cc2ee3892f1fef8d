import ImportAtlas.Text.Decimal

/-!
# Numbers with a fraction

A number with a fraction or an exponent has a sign and a magnitude, or is no number at all. Zero has
a sign too, which is shown but makes no difference otherwise.
-/

namespace ImportAtlas

/-- A number with a fraction or an exponent. -/
inductive Floating where
  | number (negative : Bool) (magnitude : Binary)
  | undefined
  deriving DecidableEq, Repr

namespace Floating

/-- The shortest spelling of a number. -/
def text : Floating → String
  | number negative magnitude =>
    let digits := Text.Decimal.spelling magnitude
    String.ofList (if negative then '-' :: digits else digits)
  | undefined => "nan"

/-- Whether a number is zero. -/
def isZero : Floating → Bool
  | number _ magnitude => magnitude.isZero
  | undefined => false

/-- Whether a number is below one. -/
def isBelowOne : Floating → Bool
  | number negative magnitude => negative || magnitude.isBelowOne
  | undefined => false

/-- The whole number that a number is, if it is one. -/
def whole? : Floating → Option Int
  | number negative magnitude =>
    magnitude.whole?.map fun n => if negative then -Int.ofNat n else Int.ofNat n
  | undefined => none

end Floating

end ImportAtlas
