/-!
# Character ranges

A set of characters given by closed ranges of code points. The classes of white space, of
printable characters and of decimal digits are tables of this form.
-/

namespace ImportAtlas.Text

/-- A closed range of code points, first and last. -/
abbrev CodeRange := Nat × Nat

/-- Whether the code point of `c` lies in one of `ranges`. -/
def inRanges (ranges : List CodeRange) (c : Char) : Bool :=
  ranges.any fun r => r.1 ≤ c.toNat && c.toNat ≤ r.2

theorem inRanges_iff {ranges : List CodeRange} {c : Char} :
    inRanges ranges c = true ↔ ∃ r ∈ ranges, r.1 ≤ c.toNat ∧ c.toNat ≤ r.2 := by
  simp [inRanges]

end ImportAtlas.Text
