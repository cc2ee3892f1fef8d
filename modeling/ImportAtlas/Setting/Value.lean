import ImportAtlas.Setting.Floating
import ImportAtlas.Setting.Moment
import ImportAtlas.Text.Integer
import ImportAtlas.Text.Quoted

/-!
# Values of settings

Settings files hold nested values. A value is shown in two ways: by itself, where a text stands as
it is, and inside a list or a table, where texts are quoted. An integer of more digits than are read
is not shown either; `Value.hasLongInteger` finds it. Nor is a value that is nested too deep.
-/

namespace ImportAtlas

/-- A value as it stands in a settings file or on an error message. -/
inductive Value where
  | none
  | bool (b : Bool)
  | int (i : Int)
  | floating (x : Floating)
  | text (s : String)
  | moment (m : Moment)
  | list (items : List Value)
  /-- A list that can no longer change. -/
  | row (items : List Value)
  | table (entries : List (String × Value))
  deriving Repr, Inhabited, BEq

namespace Value

/-! ## Spelling -/

/-- The spelling of a row; one of a single item has a comma. -/
def rowText : List String → String
  | [item] => "(" ++ item ++ ",)"
  | items => "(" ++ ", ".intercalate items ++ ")"

mutual

/-- The spelling of a value inside another one. -/
def nested : Value → String
  | none => "None"
  | bool b => if b then "True" else "False"
  | int i => toString i
  | floating x => x.text
  | text s => quotedString s
  | moment m => m.nested
  | list items => "[" ++ ", ".intercalate (nestedItems items) ++ "]"
  | row items => rowText (nestedItems items)
  | table entries => "\x7b" ++ ", ".intercalate (nestedEntries entries) ++ "\x7d"

/-- The spellings of the items of a list. -/
def nestedItems : List Value → List String
  | [] => []
  | v :: vs => nested v :: nestedItems vs

/-- The spellings of the entries of a table. -/
def nestedEntries : List (String × Value) → List String
  | [] => []
  | (k, v) :: entries => (quotedString k ++ ": " ++ nested v) :: nestedEntries entries

end

/-- The spelling of a value by itself. -/
def shown : Value → String
  | text s => s
  | moment m => m.text
  | v => nested v

mutual

/-- Whether a value is or holds an integer with too many digits to be shown. -/
def hasLongInteger : Value → Bool
  | int i => Text.isLong i
  | list items | row items => haveLongInteger items
  | table entries => hasLongEntry entries
  | _ => false

/-- Whether one of the values has an integer with too many digits. -/
def haveLongInteger : List Value → Bool
  | [] => false
  | v :: vs => hasLongInteger v || haveLongInteger vs

/-- Whether the value of an entry has an integer with too many digits. -/
def hasLongEntry : List (String × Value) → Bool
  | [] => false
  | (_, v) :: entries => hasLongInteger v || hasLongEntry entries

end

mutual

/-- How deep lists and tables are nested in a value. -/
def depth : Value → Nat
  | list items | row items => depthBelow items + 1
  | table entries => depthOfEntries entries + 1
  | _ => 0

/-- How deep lists and tables are nested in one of the values. -/
def depthBelow : List Value → Nat
  | [] => 0
  | v :: vs => max (depth v) (depthBelow vs)

/-- How deep lists and tables are nested in the value of one of the entries. -/
def depthOfEntries : List (String × Value) → Nat
  | [] => 0
  | (_, v) :: entries => max (depth v) (depthOfEntries entries)

end

/-- How deep a value may be nested to be shown. -/
def depthLimit : Nat := 980

/-! ## Questions -/

/-- Whether a value is not empty, not zero and not false. -/
def isTruthy : Value → Bool
  | none => false
  | bool b => b
  | int i => i != 0
  | floating x => !x.isZero
  | text s => s != ""
  | moment _ => true
  | list items | row items => !items.isEmpty
  | table entries => !entries.isEmpty

/-- Whether a value is a text. -/
def isText : Value → Bool
  | text _ => true
  | _ => false

/-- Whether a number is below one; none if the value is no number. -/
def isBelowOne? : Value → Option Bool
  | int i => some (i < 1)
  | bool b => some !b
  | floating x => some x.isBelowOne
  | _ => Option.none

/-- The whole number that a value is equal to. -/
def wholeNumber? : Value → Option Int
  | bool b => some (if b then 1 else 0)
  | int i => some i
  | floating x => x.whole?
  | _ => Option.none

/-- The point in time that a value is equal to. -/
def instant? : Value → Option Int
  | moment m => m.instant?
  | _ => Option.none

/-- Whether two values are the same name. Numbers of different types may be equal, and so may points
in time that are written for different zones. -/
def isSameName (v w : Value) : Bool :=
  v == w || (v.wholeNumber?.isSome && v.wholeNumber? == w.wholeNumber?)
    || (v.instant?.isSome && v.instant? == w.instant?)

/-- The texts at the start of a list, and the first item that is none. -/
def leadingTexts : List Value → List String × Option Value
  | [] => ([], Option.none)
  | text s :: vs => (s :: (leadingTexts vs).1, (leadingTexts vs).2)
  | v :: _ => ([], some v)

@[simp] theorem shown_text (s : String) : shown (text s) = s := rfl

theorem nestedItems_eq_map (vs : List Value) : nestedItems vs = vs.map nested := by
  induction vs with
  | nil => rfl
  | cons v vs ih => simp [nestedItems, ih]

theorem haveLongInteger_eq_any (vs : List Value) :
    haveLongInteger vs = vs.any hasLongInteger := by
  induction vs with
  | nil => rfl
  | cons v vs ih => simp [haveLongInteger, ih]

/-- A list of texts is all leading texts. -/
@[simp] theorem leadingTexts_map_text (ss : List String) :
    leadingTexts (ss.map text) = (ss, Option.none) := by
  induction ss with
  | nil => rfl
  | cons s ss ih => simp [leadingTexts, ih]

end Value

end ImportAtlas
