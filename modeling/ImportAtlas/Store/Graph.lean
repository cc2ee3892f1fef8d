import ImportAtlas.Graph.Basic
import ImportAtlas.Store.Connection

/-!
# Graphs in a database

A graph is saved as one transaction: all its rows or none. Loading puts the rows back into a graph,
files before imports, both by ascending id, so that all rules of graphs are tried again. Queries
answer from the rows alone.
-/

namespace ImportAtlas

namespace Store

/-- The row of a file. -/
def entryOfFile (f : SourceFile) : FileEntry where
  id := some f.id
  absolutePath := some f.absolutePath
  relativePath := some f.relativePath
  baseName := some f.baseName
  extension := some f.extension

/-- The row of an import. -/
def entryOfEdge (e : ImportEdge) : ImportEntry where
  parentId := some e.importerId
  parentPath := some e.importerPath
  locator := some e.locator
  kind := e.kind.map (·.tag)
  childId := e.targetId
  childPath := e.targetPath

variable {τ : Type} [Text.Form τ]

/-- A file as its columns take it, from left to right. -/
def bindFile (f : SourceFile τ) : Except Error SourceFile := do
  return {
    id := ← bindNumber f.id
    absolutePath := ← bindText f.absolutePath
    relativePath := ← bindText f.relativePath
    baseName := ← bindText f.baseName
    extension := ← bindText f.extension }

/-- An import as its columns take it, from left to right. -/
def bindEdge (e : ImportEdge τ) : Except Error ImportEdge := do
  return {
    importerId := ← bindNumber e.importerId
    importerPath := ← bindText e.importerPath
    locator := ← bindText e.locator
    kind := e.kind
    targetId := ← e.targetId.mapM bindNumber
    targetPath := ← e.targetPath.mapM bindText }

/-- Puts the row of a file into the open transaction. -/
def stageFile (f : SourceFile τ) : Act Unit :=
  stageRow (bindFile f) fun t f => t.insertFile (entryOfFile f)

/-- Puts the row of an import into the open transaction. -/
def stageEdge (e : ImportEdge τ) : Act Unit :=
  stageRow (bindEdge e) fun t e => t.insertImport (entryOfEdge e)

/-- The failure of a save. -/
def unsaved {α : Type} (reason : String) : Act α :=
  .fail (.store ("Failed to save graph: " ++ reason) none)

/-- Saves a graph. A row that breaks a rule undoes the whole save. A number that fits into no
column, or a text that cannot be written, stops the save half-way, with its transaction left open;
the next save then undoes it. -/
def save (g : ImportGraph τ) : Act Unit := do
  let c ← connection
  -- A transaction that an earlier save left open cannot be entered, only undone.
  if c.transaction.isSome then
    rollback
    unsaved "cannot start a transaction within a transaction"
  try
    stage (← tables)
    g.files.forM stageFile
    g.edges.forM stageEdge
    commit
  catch
    | .database fault => do
      rollback
      unsaved fault.message
    | e => throw e

/-- The file of a row. -/
def fileOfRow (row : FileRow) : SourceFile where
  absolutePath := row.absolutePath
  relativePath := row.relativePath
  baseName := row.baseName
  extension := row.extension.getD ""
  id := row.id

/-- The import of a row. -/
def edgeOfRow (row : ImportRow) : ImportEdge where
  importerId := row.parentId
  importerPath := row.parentPath
  locator := row.locator
  kind := row.kind
  targetId := row.childId
  targetPath := row.childPath

/-- Adds the file of a row to a graph. -/
def loadFile (g : ImportGraph) (row : FileRow) : Except Error ImportGraph :=
  let f := fileOfRow row
  match f.fault? with
  | some fault => .error (.failure (.invalidPath (Path.ofText f.absolutePath).text fault.reason))
  | none =>
    match g.addFile f with
    | .ok (g, _) => .ok g
    | .error fault => .error (.failure (.graph fault))

/-- Adds the import of a row to a graph. -/
def loadEdge (g : ImportGraph) (row : ImportRow) : Except Error ImportGraph :=
  match (edgeOfRow row).checked with
  | .error fault => .error (.edge fault)
  | .ok e => (g.addImport e).mapError fun fault => .failure (.graph fault)

/-- The graph that tables hold. -/
def graphOfTables (t : Tables) : Except Error ImportGraph := do
  let g ← t.filesById.foldlM loadFile .empty
  t.importsById.foldlM loadEdge g

/-- Loads the graph of the open database. -/
def load : Act ImportGraph := do
  Act.ofExcept id (graphOfTables (← tables))

/-! ## Queries -/

/-- One answer of a query. -/
structure ImportListing where
  importer : String
  locator : String
  kind : Option ImportKind
  /-- The relative path of the target, if it is a file of the database. -/
  target : Option String
  deriving DecidableEq, Repr

/-- Which imports are wanted: those of one kind, or those without a kind. -/
def kindFilter (kind : Option String) : Except EdgeFault (Option (Option ImportKind)) :=
  match kind with
  | none => .ok none
  | some "none" => .ok (some none)
  | some tag => (ImportKind.ofTag tag).map fun k => some (some k)

/-- The answer that a row of imports gives. -/
def listingOf (t : Tables) (row : ImportRow) : ImportListing where
  importer := row.parentPath
  locator := row.locator
  kind := row.kind
  target := row.childId.bind fun id =>
    (t.files.find? fun f => f.id == id).map (·.relativePath)

/-- The imports of a file, or of all, that are of a kind, or of any. -/
def listings (t : Tables) (importer : Option String) (kind : Option (Option ImportKind)) :
    List ImportListing :=
  let wanted := t.importsById.filter fun row =>
    importer.all (· == row.parentPath) && kind.all (· == row.kind)
  wanted.map (listingOf t)

/-- Asks the open database for imports. -/
def query (importer : Option τ) (kind : Option String) : Act (List ImportListing) := do
  discard connection
  let kind ← Act.ofExcept .edge (kindFilter kind)
  let t ← tables
  let importer ← Act.ofExcept id (importer.mapM bindText)
  return listings t importer kind

end Store

end ImportAtlas
