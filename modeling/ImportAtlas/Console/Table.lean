/-!
# Tables on the console

A table has a title, columns of texts, and perhaps a heading for each column. Where all its texts
are lines of characters that are one column wide, and nothing is in want of room, the table is drawn
with one line for each row: a column is as wide as its longest text, with a space on either side,
and the title is filled up to the width of the table, which all rules share (`length_ruleLine`).
-/

namespace ImportAtlas

namespace Console

/-- On which side of its column a text stands. -/
inductive Side where
  | left
  | right
  deriving DecidableEq, Repr

/-- A table of texts. -/
structure Table where
  title : String
  columns : List Side
  /-- The headings of the columns, if they have any. -/
  headings : Option (List String) := none
  rows : List (List String)
  deriving DecidableEq, Repr

namespace Table

/-- The rows of a table, after the headings if it has any. -/
def allRows (t : Table) : List (List String) :=
  t.headings.toList ++ t.rows

/-- The texts of a table. -/
def texts (t : Table) : List String :=
  t.title :: t.allRows.flatten

/-- Each row has a text for each column. -/
def IsRegular (t : Table) : Prop :=
  ∀ row ∈ t.allRows, row.length = t.columns.length

/-- The table with other texts in place of its own. -/
def map (f : String → String) (t : Table) : Table :=
  { t with
    title := f t.title
    headings := t.headings.map (·.map f)
    rows := t.rows.map (·.map f) }

theorem allRows_map (f : String → String) (t : Table) :
    (t.map f).allRows = t.allRows.map (·.map f) := by
  simp only [allRows, map, List.map_append]
  cases t.headings <;> rfl

theorem texts_map (f : String → String) (t : Table) : (t.map f).texts = t.texts.map f := by
  rw [texts, allRows_map, texts, List.map_cons, List.map_flatten]
  rfl

theorem IsRegular.map {t : Table} (h : t.IsRegular) (f : String → String) :
    (t.map f).IsRegular := by
  intro row hrow
  rw [allRows_map] at hrow
  obtain ⟨row, hmem, rfl⟩ := List.mem_map.1 hrow
  rw [List.length_map, h row hmem]
  rfl

/-! ## Lines -/

/-- The characters of a horizontal rule: where it starts, where it runs, where it meets a line
between columns, and where it ends. -/
structure Rule where
  left : Char
  run : Char
  crossing : Char
  right : Char

/-- The rule above a table without headings. -/
def topRule : Rule := ⟨'┌', '─', '┬', '┐'⟩

/-- The rule below a table. -/
def bottomRule : Rule := ⟨'└', '─', '┴', '┘'⟩

/-- The rule above headings. -/
def headTopRule : Rule := ⟨'┏', '━', '┳', '┓'⟩

/-- The rule between headings and rows. -/
def headBottomRule : Rule := ⟨'┡', '━', '╇', '┩'⟩

/-- A line of parts with one character between, before and behind them. -/
def fenced (left between right : Char) (parts : List (List Char)) : String :=
  String.ofList (left :: [between].intercalate parts ++ [right])

/-- A rule through columns of the given widths. -/
def ruleLine (r : Rule) (widths : List Nat) : String :=
  fenced r.left r.crossing r.right (widths.map fun w => List.replicate (w + 2) r.run)

/-- A text on one side of a column of width `w`. -/
def justify : Side → Nat → String → List Char
  | .left, w, text => text.toList ++ List.replicate (w - text.length) ' '
  | .right, w, text => List.replicate (w - text.length) ' ' ++ text.toList

/-- A row between bars. -/
def rowLine (bar : Char) (columns : List Side) (widths : List Nat) (row : List String) : String :=
  fenced bar bar bar <| (columns.zip (widths.zip row)).map fun (side, w, text) =>
    ' ' :: justify side w text ++ [' ']

/-- The widths of the columns. -/
def widths (t : Table) : List Nat :=
  t.columns.zipIdx.map fun (_, i) =>
    (t.allRows.map fun row => (row[i]?.getD "").length).foldl max 0

/-- The width of the table. -/
def width (t : Table) : Nat :=
  (ruleLine topRule t.widths).length

/-- The table has room in `w` columns, and its title has room over it. -/
def FitsIn (t : Table) (w : Nat) : Prop :=
  t.title.length ≤ t.width ∧ t.width ≤ w

instance (t : Table) (w : Nat) : Decidable (t.FitsIn w) :=
  inferInstanceAs (Decidable (_ ∧ _))

/-- The lines of the table. -/
def drawn (t : Table) : List String :=
  let head := match t.headings with
    | none => [ruleLine topRule t.widths]
    | some headings => [ruleLine headTopRule t.widths, rowLine '┃' t.columns t.widths headings,
        ruleLine headBottomRule t.widths]
  String.ofList (justify .left t.width t.title) :: head
    ++ t.rows.map (rowLine '│' t.columns t.widths) ++ [ruleLine bottomRule t.widths]

private theorem length_intercalate_runs (c run d other : Char) (widths : List Nat) :
    ([c].intercalate (widths.map fun w => List.replicate (w + 2) run)).length =
      ([d].intercalate (widths.map fun w => List.replicate (w + 2) other)).length := by
  induction widths with
  | nil => rfl
  | cons w widths ih =>
    -- A separator stands only between two columns.
    cases widths with
    | nil => simp [List.intercalate]
    | cons v widths =>
      simp only [List.map_cons, List.intercalate_cons_cons, List.length_append,
        List.length_replicate, List.length_cons, List.length_nil] at ih ⊢
      rw [ih]

/-- All rules of a table are as long as the table is wide. -/
theorem length_ruleLine (r : Rule) (t : Table) : (ruleLine r t.widths).length = t.width := by
  simp only [width, ruleLine, fenced, String.length_ofList, List.length_append, List.length_cons]
  rw [length_intercalate_runs r.crossing r.run topRule.crossing topRule.run]

end Table

end Console

end ImportAtlas
