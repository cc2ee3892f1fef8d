import ImportAtlas.Error

/-!
# Pairs in values

A list of pairs is taken for a table wherever a table is asked for. What stands for a pair is
anything that has two parts. A name in such a list may be any value but a list or a table.
-/

namespace ImportAtlas

namespace Value

/-- The parts of a value: the characters of a text, the items of a list, the names in a table. -/
def parts? : Value → Option (List Value)
  | text s => some (s.toList.map fun c => text (String.singleton c))
  | list items | row items => some items
  | table entries => some (entries.map fun e => text e.1)
  | _ => Option.none

/-- Whether a value may be a name. -/
def isName : Value → Bool
  | list _ | row _ | table _ => false
  | _ => true

/-- The pair that an entry of a list stands for. -/
def pairOf (index : Nat) (v : Value) : Except Error (Value × Value) :=
  match v.parts? with
  | Option.none => .error .illTyped
  | some [a, b] => if a.isName then .ok (a, b) else .error .illTyped
  | some parts => .error (.notAPair index parts.length)

/-- The pairs that the entries of a list stand for, counted from `index`. -/
def pairsFrom : Nat → List Value → Except Error (List (Value × Value))
  | _, [] => .ok []
  | index, v :: vs => do
    let pair ← pairOf index v
    return pair :: (← pairsFrom (index + 1) vs)

/-- The names and values of a table, or of a list that is taken for one. -/
def pairs : Value → Except Error (List (Value × Value))
  | table entries => .ok (entries.map fun e => (text e.1, e.2))
  | v =>
    match v.parts? with
    | Option.none => .error .illTyped
    | some parts => pairsFrom 0 parts

end Value

end ImportAtlas
