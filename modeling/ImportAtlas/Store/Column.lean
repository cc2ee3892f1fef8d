import ImportAtlas.Error
import ImportAtlas.Store.Numeral

/-!
# Columns

A column takes a missing value, a truth value, a number or a text, and turns it into what it holds:
a text column writes numbers out, with 1 for what is true, and a number column reads a text that
spells a whole number. Lists and tables fit into no column, nor do numbers of more than 63 bits and
a sign, nor texts that cannot be written. What fits into no column is found out before the database
sees the row, so it is no fault of the database.
-/

namespace ImportAtlas

namespace Store

/-- Refuses values that fit into no column. Values are counted from `position`. -/
def checkColumns (position : Nat) : List Value → Except Error Unit
  | [] => .ok ()
  | v :: vs => do
    match v with
    | .list _ | .row _ => throw (.database (.unsupported position false))
    | .table _ => throw (.database (.unsupported position true))
    -- The values are bound in order, so the first that does not fit decides.
    | .int i => if !fits i then throw .oversized
    | _ => pure ()
    checkColumns (position + 1) vs

/-- A number as a column takes it. -/
def bindNumber (i : Int) : Except Error Int :=
  if fits i then .ok i else .error .oversized

/-- A text as a column takes it. That one of more than a billion bytes has no room is left out. -/
def bindText {τ : Type} [Text.Form τ] (text : τ) : Except Error String :=
  match Text.Form.written? text with
  | some s => .ok s
  | none => .error .unencodable

/-- What a text column holds. -/
def textColumn : Value → Option String
  | .none => none
  | .bool b => some (if b then "1" else "0")
  | v => some v.shown

/-! ## Number columns -/

/-- The whole number that a text spells, if it fits into a column. -/
def spelledNumber? (s : String) : Option Int :=
  (Numeral.ofText? s).bind Numeral.integer?

/-- The id that no file has: it is the first that fits into no column. -/
def strayId : Int := 9223372036854775808

/-- What a number column holds, unless it is a text that spells no whole number. -/
def numberColumn? : Value → Option (Option Int)
  | .none => some none
  | .bool b => some (some (if b then 1 else 0))
  | .int i => some (some i)
  | v => (spelledNumber? v.shown).map some

/-- The file that a column refers to. A text that spells no whole number refers to no file. -/
def referenceColumn (v : Value) : Option Int :=
  (numberColumn? v).getD (some strayId)

/-! ## Rows -/

/-- The row of files that values ask for. The id is looked at before anything else. -/
def fileEntryOf (id absolutePath relativePath baseName extension : Value) :
    Except Constraint FileEntry :=
  match numberColumn? id with
  | none => .error .mismatch
  | some id => .ok {
      id
      absolutePath := textColumn absolutePath
      relativePath := textColumn relativePath
      baseName := textColumn baseName
      extension := textColumn extension }

/-- The row of imports that values ask for. -/
def importEntryOf (parentId parentPath locator kind childId childPath : Value) : ImportEntry where
  parentId := referenceColumn parentId
  parentPath := textColumn parentPath
  locator := textColumn locator
  kind := textColumn kind
  childId := referenceColumn childId
  childPath := textColumn childPath

end Store

end ImportAtlas
