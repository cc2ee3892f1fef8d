import ImportAtlas.Error
import ImportAtlas.Log
import ImportAtlas.Path.Relative
import ImportAtlas.Text.Utf8
import ImportAtlas.Tree.Canonical
import ImportAtlas.Tree.Update

/-!
# The host of a run

All that a run can see and change: the file tree, the working directory, the environment, the
programs it calls, its log, and its console. Acts on the host are `Act`s; what an act has changed
before an error stays changed.
-/

namespace ImportAtlas

/-- What a file holds: bytes, or the tables of a database. -/
inductive Content where
  | bytes (bs : List UInt8)
  | database (tables : Tables)

/-- How an external program answers. That there is such a program but that it may not be started,
and an answer that is not UTF-8, are left out. -/
inductive Reply where
  | finished (status : Int) (output errors : String)
  /-- There is no such program. -/
  | notFound
  /-- The program takes too long. -/
  | timedOut
  deriving Repr

/-- A call of an external program, as the settings have it. -/
structure Call where
  arguments : List Value
  timeout : Value
  deriving Repr

/-- Where a log is written: a file, and the level that its records have at least. -/
structure LogFile where
  place : Place
  threshold : LogLevel

/-- Where the tables of an open database are kept. -/
inductive Storage where
  | file (place : Place)
  /-- In memory, with its tables if they have been made. -/
  | memory (tables : Option Tables)

/-- An open database. While a transaction is open, its tables are not yet in the storage. -/
structure Connection where
  storage : Storage
  isReadOnly : Bool := false
  transaction : Option Tables := none

/-- The host of a run. -/
structure Host where
  tree : Tree Content
  /-- The working directory. -/
  folder : Place
  environment : Dictionary String String
  /-- The home directory of the user of this run, if the list of users has one. -/
  home : Option String := some "/"
  /-- The home directories of users, by their names. -/
  homes : Dictionary String String := []
  /-- The answers of external programs, one for each call. -/
  replies : List Reply
  /-- The calls of external programs so far. -/
  calls : List Call := []
  /-- The records logged so far. -/
  records : List LogRecord := []
  logFile : Option LogFile := none
  /-- The lines shown on the console so far. -/
  printed : List String := []
  connection : Option Connection := none
  /-- The time, as log files show it. -/
  stamp : String
  /-- What is said of an error that has no words of its own, as far as it arises in this run. The
  words may quote anything that was at work, such as a key of a settings file. -/
  wording : Error → String := fun
    | .malformed => "not a TOML document"
    | .illTyped => "a value is of the wrong type"
    | _ => ""

/-- An act on the host. -/
abbrev Act := EStateM Error Host

namespace Act

/-- Stops with a failure. -/
def fail {α : Type} (f : Failure) : Act α :=
  throw (.failure f)

/-- Turns a pure result into an act. -/
def ofExcept {ε α : Type} (wrap : ε → Error) : Except ε α → Act α
  | .ok a => pure a
  | .error e => throw (wrap e)

/-- The spelling of a value, refused if it is nested too deep or has too long an integer. -/
def spell (v : Value) : Act String :=
  if Value.depthLimit < v.depth then throw .tooDeep
  else if v.hasLongInteger then throw (.longInteger none)
  else return v.shown

/-- The path of the working directory. -/
def workingPath : Act Path :=
  return .ofPlace (← get).folder

/-! ## Log -/

/-- Puts text at the end of a log file. What comes behind the tables of a database is not read by
anyone, so nothing is put there. -/
def appendTo (t : Tree Content) (place : Place) (text : String) : Tree Content :=
  match t.get? place with
  | some (.file (.database _)) => t
  | some (.file (.bytes bs)) => t.put place (.file (.bytes (bs ++ Text.Utf8.encode text.toList)))
  | _ => t.put place (.file (.bytes (Text.Utf8.encode text.toList)))

/-- Logs a record on a channel, into the log file too if there is one that keeps it. -/
def log (level : LogLevel) (channel message : String) : Act Unit :=
  modify fun host =>
    let record : LogRecord := ⟨level, channelName channel, message⟩
    -- A record below the threshold of the log file is kept by the host only.
    let tree := match host.logFile.filter fun file => level.passes file.threshold with
      | some file => appendTo host.tree file.place (record.line host.stamp ++ "\n")
      | none => host.tree
    { host with tree, records := host.records ++ [record] }

/-! ## Files -/

/-- Whether a text holds a NUL, which no path can. -/
def hasNul (s : String) : Bool :=
  s.toList.contains '\x00'

/-- Runs a question to the file tree about a path. -/
def ask {α : Type} (path : String)
    (question : Tree Content → Place → String → Except AccessFault α) : Act α := do
  if hasNul path then
    throw .nul
  let host ← get
  ofExcept (Error.access · path) (question host.tree host.folder path)

/-- Changes the file tree at a path. -/
def change (path : String)
    (act : Tree Content → Place → String → Except AccessFault (Tree Content)) : Act Unit := do
  let tree ← ask path act
  modify fun host => { host with tree }

/-- Takes the file or link away that a path names. A log that is written to the file goes on, but
what it says from then on is lost. -/
def removeFile (path : String) : Act Unit := do
  change path Tree.removeFile
  modify fun host => { host with
    logFile := host.logFile.filter fun file => (host.tree.get? file.place).isSome }

/-- The entry that a path leads to; none if it leads nowhere. A name that is too long is an
error. -/
def probe (path : String) : Act (Option (Entry Content)) := do
  if hasNul path then
    return none
  let host ← get
  match host.tree.lookup host.folder path with
  | .ok (_, entry) => return some entry
  -- Of all that can be wrong with a path, only its length is not taken for an answer.
  | .error .longName => throw (.access .longName path)
  | .error _ => return none

/-- Whether a path leads to anything. -/
def pathExists (path : String) : Act Bool :=
  return (← probe path).isSome

/-- Whether a path leads to a folder. -/
def isFolder (path : String) : Act Bool := do
  match ← probe path with
  | some .folder => return true
  | _ => return false

/-- Whether a path leads to a file. -/
def isFile (path : String) : Act Bool := do
  match ← probe path with
  | some (.file _) => return true
  | _ => return false

/-- The bytes of a file. Those of a database begin with its mark; no more is said of them. -/
def readBytes (path : String) : Act (List UInt8) := do
  match ← ask path Tree.content with
  | .bytes bs => return bs
  | .database _ => return Text.Utf8.encode "SQLite format 3\x00".toList

/-- Makes the folder that a path names. A folder that is there already is left alone. -/
def makeFolder (path : String) : Act Unit := do
  try
    change path Tree.makeFolder
  catch
    | .access fault text => do
      -- A folder that is there already is as good as a new one.
      if fault = .missing || !(← isFolder path) then throw (.access fault text)
    | e => throw e

/-- Makes the folder that a path names, and all folders above it that are missing. -/
def makeFolders (path : Path) : Act Unit := do
  try
    makeFolder path.text
  catch
    -- The folder above is made only after the folder itself could not be.
    | .access .missing text =>
      if h : path.names = [] then
        throw (.access .missing text)
      else
        have : path.names.dropLast.length < path.names.length := by
          have := List.length_pos_iff.2 h
          simp only [List.length_dropLast]
          omega
        makeFolders path.parent
        makeFolder path.text
    | e => throw e
termination_by path.names.length

/-- Writes a file, after making the folders above it. -/
def writeBytes (path : Path) (bs : List UInt8) : Act Unit := do
  makeFolders path.parent
  change path.text fun t here p => t.writeFile here p (.bytes bs)

/-- The path without links that a spelled path leads to. -/
def canonical (path : String) : Act Path := do
  let host ← get
  match host.tree.canonical? host.folder path with
  | some p => return p
  | none => throw .nul

/-- The canonical path, refused if it ends in a circle of links. -/
def resolve (path : Path) : Act Path := do
  let p ← canonical path.text
  let host ← get
  match host.tree.lookup host.folder p.text with
  | .error .manyLinks => throw (.linkLoop p.text)
  | _ => return p

/-- Starts a log of level `threshold`, into a file too if one is named. The path of the file is
collapsed as it is spelled, before any link in it is followed. The file is made if it is missing;
what it holds already stays. -/
def startLog (threshold : LogLevel) (file : Option String) : Act Unit := do
  match file with
  | none => modify fun host => { host with logFile := none }
  | some file =>
    let path := ((Path.ofText file).absolute (← workingPath)).collapse
    let place ← ask path.text Tree.filePlace
    modify fun host => { host with
      tree := appendTo host.tree place ""
      logFile := some { place, threshold } }

/-! ## Programs -/

/-- Calls an external program. -/
def call (arguments : List Value) (timeout : Value) : Act Reply := do
  let host ← get
  set { host with
    replies := host.replies.drop 1
    calls := host.calls ++ [Call.mk arguments timeout] }
  return host.replies.head?.getD .notFound

end Act

end ImportAtlas
