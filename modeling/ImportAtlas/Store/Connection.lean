import ImportAtlas.Host
import ImportAtlas.Store.Address
import ImportAtlas.Store.Column
import ImportAtlas.Store.Place

/-!
# Opening a database

A database is a file with the two tables, or it is in memory. Opening it fresh takes away what
stands at its spelled path; otherwise something must be there. A file of no bytes is a database
without tables, any other file that is not a database is found out when its tables are wanted. Rows
go into the storage when they are committed; a transaction that is left open is seen by the
connection alone.
-/

namespace ImportAtlas

namespace Store

/-- The channel of log records about the database. -/
def channel : String := "persistence.database"

/-! ## Storage -/

/-- The storage of the database that an address names, if it can be opened. The file whose
permissions it takes over must be there. A folder can be opened for reading, but there is nothing to
be read in it. -/
def storageOf (a : Address) (t : Tree Content) (here : Place) : Except DatabaseFault Storage := do
  if a.isInMemory then
    return .memory none
  let some place := placeOf? t here a.path | throw .unopened
  if let some model := a.modelFile? then
    if !(t.lookup here model).isOk then
      throw .unreadable
  match t.get? place with
  | some (.file _) => return .file place
  | some _ => throw (if a.mode = .readOnly then .unreadable else .unopened)
  -- Only the file itself is made, never its folder.
  | none =>
    if a.mode = .create && t.isFolder place.dropLast then return .file place else throw .unopened

/-- Makes the file of a storage if it is missing; it has no bytes yet. -/
def Storage.plant (t : Tree Content) : Storage → Tree Content
  | .file place => if (t.get? place).isNone then t.put place (.file (.bytes [])) else t
  | .memory _ => t

/-- Opens the database at a path, once everything is in order. -/
def opened (path : Path) (fresh : Bool) : Act Connection := do
  let refuse {α : Type} (reason : String) : Act α := .fail (.store reason (some path.text))
  try
    if fresh then
      try Act.removeFile path.text catch
        | .access .missing _ => pure ()
        | e => throw e
    else if !(← Act.pathExists path.text) then
      refuse "database does not exist"
    Act.makeFolders path.parent
  catch
    -- A NUL in the path is no access fault, so it is not reported as one.
    | .access fault text => refuse (fault.text text)
    | e => throw e
  let host ← get
  match Address.ofText path.text with
  | .error reason => refuse reason
  | .ok a =>
    match storageOf a host.tree host.folder with
    | .error fault => refuse fault.message
    | .ok storage =>
      set { host with tree := Storage.plant host.tree storage }
      return { storage, isReadOnly := a.isReadOnly }

/-- The open connection. -/
def connection : Act Connection := do
  match (← get).connection with
  | some c => return c
  | none => throw .notConnected

/-- The tables in a storage, if it has any. -/
def committed (t : Tree Content) : Storage → Except DatabaseFault (Option Tables)
  | .memory tables => .ok tables
  | .file place =>
    match t.get? place with
    | some (.file (.database tables)) => .ok (some tables)
    -- An empty file is a database that has no tables yet.
    | some (.file (.bytes (_ :: _))) => .error .notADatabase
    | _ => .ok none

/-- The tables as the connection sees them. -/
def tables : Act Tables := do
  let c ← connection
  match c.transaction with
  | some tables => return tables
  | none =>
    match ← Act.ofExcept .database (committed (← get).tree c.storage) with
    | some tables => return tables
    | none => throw (.database .noTables)

/-- Puts rows into the open transaction; opens one if there is none. -/
def stage (tables : Tables) : Act Unit := do
  let c ← connection
  modify fun host => { host with connection := some { c with transaction := some tables } }

/-- Puts tables into the storage of the connection, which ends its transaction. -/
def store (tables : Tables) : Act Unit := do
  let c ← connection
  modify fun host =>
    match c.storage with
    | .file place => { host with
        tree := host.tree.put place (.file (.database tables))
        connection := some { c with transaction := none } }
    | .memory _ => { host with
        connection := some { c with storage := .memory (some tables), transaction := none } }

/-- Puts the open transaction into the storage, if there is one. -/
def commit : Act Unit := do
  let c ← connection
  if let some tables := c.transaction then
    store tables

/-- Drops the open transaction. -/
def rollback : Act Unit := do
  let c ← connection
  modify fun host => { host with connection := some { c with transaction := none } }

/-- Closes the connection; an open transaction is lost. -/
def close : Act Unit :=
  modify fun host => { host with connection := none }

/-- Whether a connection is open. -/
def isConnected : Act Bool :=
  return (← get).connection.isSome

/-- Makes the tables of a database that has none. The first change of a file needs another one
beside it. -/
def makeTables : Act Unit := do
  let c ← connection
  let found ← Act.ofExcept .database (committed (← get).tree c.storage)
  -- Tables that are there stay as they are.
  if found.isNone then
    if c.isReadOnly then
      throw (.database .readOnly)
    if let .file place := c.storage then
      if !hasJournalName place then
        throw (.database .unopened)
    store .empty

/-- Opens a database and makes sure of its tables. -/
def connect (path : Path) (fresh : Bool) : Act Unit := do
  let c ← opened path fresh
  -- The connection is there before its tables are, and stays if they cannot be made.
  modify fun host => { host with connection := some c }
  makeTables
  Act.log .debug channel ("Graph DB connected at " ++ path.text)

/-- Does something with a database open, and closes it in any case. -/
def session {α : Type} (path : Path) (fresh : Bool) (act : Act α) : Act α := do
  try
    connect path fresh
    let result ← act
    close
    return result
  catch e =>
    close
    throw e

/-! ## Single rows -/

/-- Puts a row into the open transaction. Whether the database can be read at all is found out
before its columns are looked at, and these before it is written to. -/
def stageRow {α : Type} (columns : Except Error α)
    (insert : Tables → α → Except Constraint Tables) : Act Unit := do
  let before ← tables
  let row ← Act.ofExcept id columns
  if (← connection).isReadOnly then
    throw (.database .readOnly)
  stage (← Act.ofExcept (fun rule => .database (.violation rule)) (insert before row))

/-- Does something and commits; on an error nothing since the last commit stays. -/
def committing (act : Act Unit) : Act Unit := do
  discard connection
  try
    act
    commit
  catch e =>
    rollback
    throw e

/-- Inserts a row of files. -/
def insertFile (id absolutePath relativePath baseName extension : Value) : Act Unit :=
  let columns := checkColumns 1 [id, absolutePath, relativePath, baseName, extension]
  committing <| stageRow columns fun t () => do
    t.insertFile (← fileEntryOf id absolutePath relativePath baseName extension)

/-- Inserts a row of imports. -/
def insertImport (parentId parentPath locator kind childId childPath : Value) : Act Unit :=
  let columns := checkColumns 1 [parentId, parentPath, locator, kind, childId, childPath]
  committing <| stageRow columns fun t () => do
    t.insertImport (importEntryOf parentId parentPath locator kind childId childPath)

end Store

end ImportAtlas
