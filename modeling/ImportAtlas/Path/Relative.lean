import ImportAtlas.Path.Basic

/-!
# Relative paths

Two ways to see a path from a directory. `Path.below?` only cuts a common start off and fails
where there is none. `Path.relativeTo` climbs out of the directory with `..` as far as needed;
both paths are taken from the working directory and collapsed first.
-/

namespace ImportAtlas.Path

/-- The rest of `p` after the names of `directory`, if `p` starts with them. -/
def below? (p directory : Path) : Option Path :=
  if p.anchor = directory.anchor ∧ directory.names <+: p.names then
    some ⟨.here, p.names.drop directory.names.length⟩
  else
    none

/-- The collapsed path that `p` names from the directory `cwd`. -/
def absolute (p cwd : Path) : Path :=
  (cwd / p : Path).collapse

/-- The number of names that two lists start with in common. -/
def commonLength : List String → List String → Nat
  | a :: as, b :: bs => if a = b then commonLength as bs + 1 else 0
  | _, _ => 0

/-- The names that lead from the directory with names `start` to the one with names `target`. -/
def stepsBetween (start target : List String) : List String :=
  let common := commonLength start target
  List.replicate (start.length - common) ".." ++ target.drop common

/-- How `p` is reached from `directory`, both seen from `cwd`. -/
def relativeTo (p cwd directory : Path) : Path :=
  ⟨.here, stepsBetween (directory.absolute cwd).names (p.absolute cwd).names⟩

theorem commonLength_le_left (as bs : List String) : commonLength as bs ≤ as.length := by
  fun_induction commonLength as bs <;> simp_all

/-- The names counted as common are the same. -/
theorem take_commonLength (as bs : List String) :
    as.take (commonLength as bs) = bs.take (commonLength as bs) := by
  fun_induction commonLength as bs <;> simp_all

end ImportAtlas.Path
