import ImportAtlas.Toml.Value

/-!
# Documents

A document is a table. Its lines set keys, open a table by a heading in brackets, or add a table to
a list by a heading in double brackets; headings hold until the next one. Marks on key paths keep
what is written once from being written again: lists and tables written as values are closed with
all that is in them, and a table is opened by a heading once.
-/

namespace ImportAtlas.Toml

/-- What a mark on a path of keys forbids. -/
inductive Mark where
  /-- The path and all below it may not change. -/
  | closed
  /-- The path may not be opened by a heading. -/
  | opened
  deriving DecidableEq

/-- How far a document is read: its table, the marks on its paths, the marks that the next heading
puts in force, and the heading. -/
structure Draft where
  table : Dictionary String Value
  marks : List (List String × Mark)
  pending : List (List String × Mark)
  heading : List String

namespace Draft

/-- The draft of an empty document. -/
def empty : Draft :=
  ⟨[], [], [], []⟩

/-- Whether a mark holds at a path. The document itself has none. -/
def isMarked (d : Draft) (path : List String) (mark : Mark) : Bool :=
  path != [] && d.marks.any fun m =>
    m.2 == mark && (m.1 == path || (mark == .closed && m.1.isPrefixOf path))

/-- Puts pending marks in force. -/
def settle (d : Draft) : Draft :=
  { d with marks := d.pending ++ d.marks, pending := [] }

/-- Opens a table by a heading. -/
def openTable (d : Draft) (path : List String) : Option Draft := do
  if d.isMarked path .opened || d.isMarked path .closed then none
  else
    let table ← alterAt true some path d.table
    return { d with table, marks := (path, .opened) :: d.marks, heading := path }

/-- Adds a table to the list behind a key, or makes the list. -/
def addToList (key : String) (table : Dictionary String Value) :
    Option (Dictionary String Value) :=
  match table.get? key with
  | none => some (table.put key (.list [.table []]))
  | some (.list items) => some (table.put key (.list (items ++ [.table []])))
  | some _ => none

/-- Opens a new table of a list by a heading. The tables in it can be opened anew. -/
def openItem (d : Draft) (path : List String) : Option Draft := do
  if d.isMarked path .closed then none
  else
    let table ← alterAt true (addToList (path.getLastD "")) path.dropLast d.table
    let marks := d.marks.filter fun m => !path.isPrefixOf m.1
    return { d with table, marks := (path, .opened) :: marks, heading := path }

/-- Sets a key below the heading. The tables that its dots lead through may not have been opened
by a heading, and none that follows may open them. -/
def setKey (d : Draft) (path : List String) (v : Value) : Option Draft := do
  let through := (List.range (path.length - 1)).map fun i => d.heading ++ path.take (i + 1)
  let parent := d.heading ++ path.dropLast
  if through.any (d.isMarked · .opened) || d.isMarked parent .closed then none
  else
    let table ← alterAt true (putNew (path.getLastD "") v) parent d.table
    -- A table written inline is complete.
    let marks := if isNest v then (d.heading ++ path, .closed) :: d.marks else d.marks
    return { d with table, marks, pending := through.map (·, .opened) ++ d.pending }

/-- Reads the statement at the start of a line. -/
def statement (d : Draft) (s : List Char) : Reading (Draft × List Char) :=
  match s with
  | '#' :: _ => .ok (d, s)
  -- A bracket is part of a double one if there is another right behind it.
  | '[' :: '[' :: s => do
    let (path, s) ← key (skipSpaces s)
    let d ← d.settle.openItem path
    let s ← afterMark? "]]" s
    return (d, s)
  | '[' :: s => do
    let (path, s) ← key (skipSpaces s)
    let d ← d.settle.openTable path
    let s ← afterMark? "]" s
    return (d, s)
  | _ => do
    let ((path, v), s) ← keyValue s
    let d ← d.setKey path v
    return (d, s)

/-- Reads the lines of a document, at most `fuel` of them. -/
def readLines : Nat → Draft → List Char → Reading Draft
  | 0, _, _ => .error .malformed
  | fuel + 1, d, s =>
    match skipSpaces s with
    | [] => .ok d
    | '\n' :: s => readLines fuel d s
    | s => do
      let (d, s) ← d.statement s
      -- Behind a statement only a comment may stand.
      let s ← skipComment (skipSpaces s)
      match s with
      | [] => return d
      | '\n' :: s => readLines fuel d s
      | _ => .error .malformed

end Draft

/-- Writes each pair of a carriage return and a line feed as a line feed. -/
def joinLineEnds : List Char → List Char
  | '\r' :: '\n' :: s => '\n' :: joinLineEnds s
  | c :: s => c :: joinLineEnds s
  | [] => []

/-- The table that a document stands for. Each line takes a character at least, the last one perhaps
none. -/
def document (s : List Char) : Reading (Dictionary String Value) :=
  let s := joinLineEnds s
  (Draft.readLines (s.length + 1) .empty s).map (·.table)

end ImportAtlas.Toml
