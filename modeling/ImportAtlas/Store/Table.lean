import ImportAtlas.Import.Kind
import ImportAtlas.Numbering

/-!
# Tables of files and imports

The database of a run has a row for each file and one for each import. A row is inserted only if
it keeps the rules of its table; the rules are tried in a fixed order, and the first one that is
broken is reported: whether there is an id for it, required columns from left to right, the tag of
the kind, uniqueness, and last the references to files.
-/

namespace ImportAtlas

/-- A row of the table of files. -/
structure FileRow where
  id : Int
  absolutePath : String
  relativePath : String
  baseName : String
  extension : Option String
  deriving DecidableEq, Repr

/-- A row of the table of imports. -/
structure ImportRow where
  id : Int
  parentId : Int
  parentPath : String
  locator : String
  kind : Option ImportKind
  childId : Option Int
  childPath : Option String
  deriving DecidableEq, Repr

/-- The two tables, each with its rows in the order of insertion. -/
structure Tables where
  files : List FileRow
  imports : List ImportRow
  deriving DecidableEq, Repr

/-- A row that asks to be a row of files. Any column may be missing. -/
structure FileEntry where
  id : Option Int
  absolutePath : Option String
  relativePath : Option String
  baseName : Option String
  extension : Option String
  deriving DecidableEq, Repr

/-- A row that asks to be a row of imports. Any column may be missing; the kind is a tag. -/
structure ImportEntry where
  parentId : Option Int
  parentPath : Option String
  locator : Option String
  kind : Option String
  childId : Option Int
  childPath : Option String
  deriving DecidableEq, Repr

/-- The rules that a row can break. -/
inductive Constraint where
  /-- A required column is missing. -/
  | required (column : String)
  /-- The tag is not one of a kind. -/
  | kindTag
  /-- The columns hold what another row holds. -/
  | unique (columns : String)
  /-- A reference leads to no file. -/
  | reference
  /-- What stands for an id is no number. -/
  | mismatch
  /-- No id is left for the row. -/
  | exhausted
  deriving DecidableEq, Repr

/-- The broken rule in words. -/
def Constraint.message : Constraint → String
  | required column => "NOT NULL constraint failed: " ++ column
  | kindTag => "CHECK constraint failed: local_or_lib IN ('local', 'lib')"
  | unique columns => "UNIQUE constraint failed: " ++ columns
  | reference => "FOREIGN KEY constraint failed"
  | mismatch => "datatype mismatch"
  | exhausted => "database or disk is full"

/-- Why a database refuses what is asked of it. -/
inductive DatabaseFault where
  /-- A row breaks a rule of its table. -/
  | violation (rule : Constraint)
  /-- The file that was opened is no database. -/
  | notADatabase
  /-- A file that is needed cannot be opened. -/
  | unopened
  /-- What was opened cannot be read. -/
  | unreadable
  /-- The database is only to be read. -/
  | readOnly
  /-- The database has no tables. -/
  | noTables
  /-- The value at a position is a list or a table, which fits into no column. -/
  | unsupported (position : Nat) (isTable : Bool)
  deriving DecidableEq, Repr

/-- The fault in words. -/
def DatabaseFault.message : DatabaseFault → String
  | violation rule => rule.message
  | notADatabase => "file is not a database"
  | unopened => "unable to open database file"
  | unreadable => "disk I/O error"
  | readOnly => "attempt to write a readonly database"
  | noTables => "no such table: local_files"
  | unsupported position isTable =>
    "Error binding parameter " ++ toString position ++ ": type "
      ++ (if isTable then "'dict'" else "'list'") ++ " is not supported"

/-- The value of a required column. -/
def requiredColumn {α : Type} (column : String) : Option α → Except Constraint α
  | some value => .ok value
  | none => .error (.required column)

/-- The kind that a tag column stands for. -/
def kindColumn : Option String → Except Constraint (Option ImportKind)
  | none => .ok none
  | some tag =>
    match ImportKind.ofTag? tag with
    | some kind => .ok (some kind)
    | none => .error .kindTag

namespace Tables

/-- Tables without rows. -/
def empty : Tables :=
  ⟨[], []⟩

/-- Whether a row of files has the id. -/
def hasFile (t : Tables) (id : Int) : Bool :=
  t.files.any fun row => row.id == id

/-- Inserts a row of files. One without an id gets the next one; that there is none past the largest
id a row can have, and one is picked at random then, is left out. -/
def insertFile (t : Tables) (e : FileEntry) : Except Constraint Tables := do
  let absolutePath ← requiredColumn "local_files.abs_path" e.absolutePath
  let relativePath ← requiredColumn "local_files.rel_path" e.relativePath
  let baseName ← requiredColumn "local_files.base_name" e.baseName
  let id := e.id.getD (nextId (t.files.map (·.id)))
  -- The id is checked before the path, so a row that repeats both is refused for its id.
  if t.hasFile id then
    throw (.unique "local_files.id")
  if t.files.any fun row => row.absolutePath == absolutePath then
    throw (.unique "local_files.abs_path")
  return { t with files := t.files ++ [⟨id, absolutePath, relativePath, baseName, e.extension⟩] }

/-- The largest id that a row can have. -/
def lastId : Int := 9223372036854775807

/-- The id of the next row of imports: past all ids in use, and positive. Rows are never taken away
here, so no larger id has been in use before. -/
def nextImportId (t : Tables) : Int :=
  max 1 (nextId (t.imports.map (·.id)))

/-- Inserts a row of imports, under the next id. -/
def insertImport (t : Tables) (e : ImportEntry) : Except Constraint Tables := do
  -- The id is drawn before any column is looked at.
  let id := t.nextImportId
  if lastId < id then
    throw .exhausted
  let parentId ← requiredColumn "imports.parent_id" e.parentId
  let parentPath ← requiredColumn "imports.parent_path" e.parentPath
  let locator ← requiredColumn "imports.import_locator" e.locator
  let kind ← kindColumn e.kind
  if t.imports.any fun row => row.parentPath == parentPath && row.locator == locator then
    throw (.unique "imports.parent_path, imports.import_locator")
  if !t.hasFile parentId || e.childId.any fun id => !t.hasFile id then
    throw .reference
  return { t with
    imports := t.imports ++ [⟨id, parentId, parentPath, locator, kind, e.childId, e.childPath⟩] }

/-- The rows of files by ascending id. -/
def filesById (t : Tables) : List FileRow :=
  t.files.mergeSort fun a b => a.id ≤ b.id

/-- The rows of imports by ascending id. -/
def importsById (t : Tables) : List ImportRow :=
  t.imports.mergeSort fun a b => a.id ≤ b.id

end Tables

end ImportAtlas
