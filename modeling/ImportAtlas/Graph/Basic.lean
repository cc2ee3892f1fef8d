import ImportAtlas.Dictionary
import ImportAtlas.Import.Kind
import ImportAtlas.Numbering
import ImportAtlas.Path.Basic
import ImportAtlas.Text.Form
import ImportAtlas.Text.Quoted

/-!
# Import graphs

A graph holds files and imports in the order of insertion and never gives one up. Files have ids
and absolute paths, both unique; an import goes out from a file of the graph, and a file imports a
locator once. `insertFile` and `insertImport` refuse what would break that, and say why.

Two indexes go with a graph: the ids under the paths of their files, and the keys of the imports.
What an insertion does to all four parts at once is said by `insertFile_eq` and `insertImport_eq`.

Graphs only compare their texts, so they are of texts of any type: of characters if nothing else is
said, or of texts that cannot all be written, as the names of files may be.
-/

namespace ImportAtlas

/-- A source file. The id 0 is held by files that have not been given one. -/
structure SourceFile (τ : Type := String) where
  absolutePath : τ
  relativePath : τ
  baseName : τ
  extension : τ
  id : Int := 0
  deriving DecidableEq, Repr

/-- Why something is no source file. -/
inductive FileFault where
  | notAbsolute
  | noRelativePath
  | noBaseName
  deriving DecidableEq, Repr

/-- The fault in words. -/
def FileFault.reason : FileFault → String
  | notAbsolute => "path must be absolute"
  | noRelativePath => "relative path is empty"
  | noBaseName => "base name is empty"

namespace SourceFile

/-- The file with its texts as texts of another type. -/
def as {τ : Type} [Text.Form τ] (f : SourceFile) : SourceFile τ where
  absolutePath := Text.Form.ofText f.absolutePath
  relativePath := Text.Form.ofText f.relativePath
  baseName := Text.Form.ofText f.baseName
  extension := Text.Form.ofText f.extension
  id := f.id

/-- What is wrong with the paths of a file, if anything. -/
def fault? (f : SourceFile) : Option FileFault :=
  if !(Path.ofText f.absolutePath).isAbsolute then some .notAbsolute
  else if f.relativePath = "" then some .noRelativePath
  else if f.baseName = "" then some .noBaseName
  else none

/-- The file with these paths; its base name and extension are those of the relative path. -/
def ofPaths (absolutePath relativePath : String) : SourceFile :=
  let relative := Path.ofText relativePath
  { absolutePath, relativePath
    baseName := relative.name
    extension := String.ofList (relative.suffix.toList.drop 1) }

end SourceFile

/-- One import: what file imports which locator, and what is known of the target. The target path
is a file on disk; the target id is there if that file belongs to the graph. -/
structure ImportEdge (τ : Type := String) where
  importerId : Int
  importerPath : τ
  locator : τ
  kind : Option ImportKind := none
  targetId : Option Int := none
  targetPath : Option τ := none
  deriving DecidableEq, Repr

/-- Why something is no import. -/
inductive EdgeFault where
  | noImporterPath
  | noLocator
  /-- No kind has the tag, which is given as it is quoted. -/
  | unknownKind (quoted : String)
  deriving DecidableEq, Repr

/-- The fault in words. -/
def EdgeFault.message : EdgeFault → String
  | noImporterPath => "importer_path must not be empty"
  | noLocator => "locator must not be empty"
  | unknownKind quoted => quoted ++ " is not a valid ImportKind"

/-- The kind with a tag. -/
def ImportKind.ofTag (tag : String) : Except EdgeFault ImportKind :=
  match ofTag? tag with
  | some kind => .ok kind
  | none => .error (.unknownKind (quotedString tag))

namespace ImportEdge

/-- The import with its texts as texts of another type. -/
def as {τ : Type} [Text.Form τ] (e : ImportEdge) : ImportEdge τ where
  importerId := e.importerId
  importerPath := Text.Form.ofText e.importerPath
  locator := Text.Form.ofText e.locator
  kind := e.kind
  targetId := e.targetId
  targetPath := e.targetPath.map Text.Form.ofText

/-- What is wrong with the texts of an import, if anything. -/
def fault? (e : ImportEdge) : Option EdgeFault :=
  if e.importerPath = "" then some .noImporterPath
  else if e.locator = "" then some .noLocator
  else none

/-- The import `e` with the kind that a tag stands for; no tag leaves it unclassified. -/
def withTag (e : ImportEdge) (tag : Option String) : Except EdgeFault ImportEdge :=
  match e.fault?, tag with
  | some fault, _ => .error fault
  | none, none => .ok { e with kind := none }
  | none, some tag => (ImportKind.ofTag tag).map fun kind => { e with kind := some kind }

/-- What makes an import unique in its graph. -/
def key {τ : Type} (e : ImportEdge τ) : τ × τ :=
  (e.importerPath, e.locator)

/-- Whether the target belongs to the graph. -/
def isResolved {τ : Type} (e : ImportEdge τ) : Bool :=
  e.targetId.isSome

end ImportEdge

/-- The import `e`, unless something is wrong with its texts. -/
def ImportEdge.checked (e : ImportEdge) : Except EdgeFault ImportEdge :=
  match e.fault? with
  | some fault => .error fault
  | none => .ok e

/-- Files and the imports between them, in the order of insertion, with an index for each. -/
structure ImportGraph (τ : Type := String) where
  /-- The files under their ids. -/
  table : Dictionary Int (SourceFile τ)
  /-- The ids under the absolute paths of their files. -/
  idsByPath : Dictionary τ Int
  edges : List (ImportEdge τ)
  /-- The keys of the imports. -/
  edgeKeys : List (τ × τ)
  deriving DecidableEq, Repr

/-- Why a graph refuses a file, an import or a question. -/
inductive GraphFault (τ : Type := String) where
  /-- The path of a new file, or its id, is taken. -/
  | duplicateFile (absolutePath : τ)
  /-- The file imports the locator already. -/
  | duplicateImport (importerPath locator : τ)
  /-- No file has the id. -/
  | unknownFile (id : Int) (importerPath : τ) (locator : Option τ)
  deriving DecidableEq, Repr

/-- An act on a graph. What it has changed before a fault stays changed. -/
abbrev GraphAct (τ : Type) := EStateM (GraphFault τ) (ImportGraph τ)

namespace ImportGraph

section Parts

variable {τ : Type}

/-- The graph without files. -/
def empty : ImportGraph τ :=
  ⟨[], [], [], []⟩

/-- The files. -/
def files (g : ImportGraph τ) : List (SourceFile τ) :=
  g.table.values

/-- The file with an id. -/
def file? (g : ImportGraph τ) (id : Int) : Option (SourceFile τ) :=
  g.table.get? id

/-- Whether a file has the id. -/
def hasId (g : ImportGraph τ) (id : Int) : Bool :=
  g.table.has id

/-- The id that a file gets: its own, or a fresh one if it has none. -/
def idFor (g : ImportGraph τ) (f : SourceFile τ) : Int :=
  if f.id = 0 then nextId g.table.keys else f.id

variable [DecidableEq τ]

/-- Whether a file has the absolute path. -/
def hasPath (g : ImportGraph τ) (absolutePath : τ) : Bool :=
  g.idsByPath.has absolutePath

/-- The graph with a file under an id. -/
def withFile (g : ImportGraph τ) (f : SourceFile τ) (id : Int) : ImportGraph τ :=
  { g with
    table := g.table.put id { f with id }
    idsByPath := g.idsByPath.put f.absolutePath id }

/-- The graph with one more import. -/
def withEdge (g : ImportGraph τ) (e : ImportEdge τ) : ImportGraph τ :=
  { g with
    edges := g.edges ++ [e]
    edgeKeys := g.edgeKeys.insert e.key }

/-! ## Insertion -/

/-- Inserts a file and gives its id. -/
def insertFile (f : SourceFile τ) : GraphAct τ Int := do
  let g ← get
  if g.hasPath f.absolutePath then
    throw (.duplicateFile f.absolutePath)
  -- The id of the file itself is kept if it is not 0, and must then be free.
  let id := g.idFor f
  if g.hasId id then
    throw (.duplicateFile f.absolutePath)
  -- Nothing fails from here on, so a refused file has left the graph alone.
  modify fun g => { g with table := g.table.put id { f with id } }
  modify fun g => { g with idsByPath := g.idsByPath.put f.absolutePath id }
  return id

/-- Inserts an import and gives it back. -/
def insertImport (e : ImportEdge τ) : GraphAct τ (ImportEdge τ) := do
  let g ← get
  -- Of several faults the importer's comes first, then the target's, then the repetition.
  if !g.hasId e.importerId then
    throw (.unknownFile e.importerId e.importerPath (some e.locator))
  if let some id := e.targetId then
    if !g.hasId id then
      throw (.unknownFile id e.importerPath (some e.locator))
  if g.edgeKeys.contains e.key then
    throw (.duplicateImport e.importerPath e.locator)
  modify fun g => { g with edges := g.edges ++ [e] }
  modify fun g => { g with edgeKeys := g.edgeKeys.insert e.key }
  return e

/-- The graph with a file more, and the id of the file. -/
def addFile (g : ImportGraph τ) (f : SourceFile τ) :
    Except (GraphFault τ) (ImportGraph τ × Int) :=
  match insertFile f g with
  | .ok id g => .ok (g, id)
  | .error fault _ => .error fault

/-- The graph with an import more. -/
def addImport (g : ImportGraph τ) (e : ImportEdge τ) : Except (GraphFault τ) (ImportGraph τ) :=
  match insertImport e g with
  | .ok _ g => .ok g
  | .error fault _ => .error fault

/-! ## What an insertion does -/

/-- A file is refused if its path or its id is taken; a graph that refuses it is as it was. -/
theorem insertFile_eq (f : SourceFile τ) (g : ImportGraph τ) :
    insertFile f g =
      if g.hasPath f.absolutePath || g.hasId (g.idFor f) then
        .error (.duplicateFile f.absolutePath) g
      else
        .ok (g.idFor f) (g.withFile f (g.idFor f)) := by
  have hget : (get : GraphAct τ (ImportGraph τ)) g = .ok g g := rfl
  simp only [insertFile, bind, EStateM.bind, hget]
  -- A path that is taken is noticed first, then an id.
  by_cases hpath : g.hasPath f.absolutePath
  · simp only [hpath, ↓reduceIte, Bool.true_or]
    rfl
  · by_cases hid : g.hasId (g.idFor f)
    · simp only [hpath, hid, ↓reduceIte, Bool.false_eq_true, Bool.or_true]
      rfl
    · simp only [hpath, hid, ↓reduceIte, Bool.false_eq_true, Bool.or_self]
      rfl

/-- An import is refused if its ends are not in the graph or its key is taken; a graph that refuses
it is as it was. -/
theorem insertImport_eq (e : ImportEdge τ) (g : ImportGraph τ) :
    insertImport e g =
      if !g.hasId e.importerId then
        .error (.unknownFile e.importerId e.importerPath (some e.locator)) g
      else if e.targetId.any fun id => !g.hasId id then
        .error (.unknownFile (e.targetId.getD 0) e.importerPath (some e.locator)) g
      else if g.edgeKeys.contains e.key then
        .error (.duplicateImport e.importerPath e.locator) g
      else
        .ok e (g.withEdge e) := by
  have hget : (get : GraphAct τ (ImportGraph τ)) g = .ok g g := rfl
  simp only [insertImport, bind, EStateM.bind, hget]
  -- The checks are made in this order: the importer, the target if there is one, and the key.
  by_cases himporter : g.hasId e.importerId
  · simp only [himporter, Bool.not_true, Bool.false_eq_true, ↓reduceIte]
    -- An edge without a target has two checks to pass, any other one three.
    cases htarget : e.targetId with
    | none =>
      by_cases hkey : g.edgeKeys.contains e.key
      all_goals
        simp only [hkey, Option.any_none, Bool.false_eq_true, ↓reduceIte]
        rfl
    | some id =>
      by_cases hid : g.hasId id
      · by_cases hkey : g.edgeKeys.contains e.key
        all_goals
          simp only [hid, hkey, Option.any_some, Bool.not_true, Bool.false_eq_true, ↓reduceIte]
          rfl
      · simp only [hid, Option.any_some, Bool.not_false, ↓reduceIte]
        rfl
  · simp only [himporter, Bool.not_false, ↓reduceIte]
    rfl

end Parts

end ImportGraph

end ImportAtlas
