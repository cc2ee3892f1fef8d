import ImportAtlas.Graph.Basic

/-!
# Questions to an import graph

Everything is answered in the order of insertion. Only asking for the file of an unknown id is an
error; neighbours of an unknown id are none.
-/

namespace ImportAtlas.ImportGraph

/-- The file with an id, or a fault if there is none. -/
def file (g : ImportGraph) (id : Int) : Except GraphFault SourceFile :=
  match g.file? id with
  | some f => .ok f
  | none => .error (.unknownFile id "" none)

/-- The file with an absolute path. -/
def fileAt? {τ : Type} [DecidableEq τ] (g : ImportGraph τ) (absolutePath : τ) :
    Option (SourceFile τ) :=
  (g.idsByPath.get? absolutePath).bind g.file?

/-- The first file with a relative path. -/
def fileCalled? (g : ImportGraph) (relativePath : String) : Option SourceFile :=
  g.files.find? fun f => f.relativePath == relativePath

/-- The imports that go out from a file. -/
def importsOf (g : ImportGraph) (id : Int) : List ImportEdge :=
  g.edges.filter fun e => e.importerId == id

/-- The imports whose target is a file. -/
def importsTo (g : ImportGraph) (id : Int) : List ImportEdge :=
  g.edges.filter fun e => e.targetId == some id

/-- The files that a file imports, each once. -/
def children (g : ImportGraph) (id : Int) : List SourceFile :=
  ((g.importsOf id).filterMap (·.targetId)).eraseDups.filterMap g.file?

/-- The files that import a file, each once. -/
def parents (g : ImportGraph) (id : Int) : List SourceFile :=
  ((g.importsTo id).map (·.importerId)).eraseDups.filterMap g.file?

/-- The imports of a kind; none stands for those without one. -/
def edgesOfKind (g : ImportGraph) (kind : Option ImportKind) : List ImportEdge :=
  g.edges.filter fun e => e.kind == kind

/-- The imports whose target belongs to the graph. -/
def resolvedEdges (g : ImportGraph) : List ImportEdge :=
  g.edges.filter (·.isResolved)

/-- The files that no import leads to. -/
def roots (g : ImportGraph) : List SourceFile :=
  g.files.filter fun f => !g.edges.any fun e => e.targetId == some f.id

/-- Each id with the targets of its imports, repeated as often as they are imported. -/
def adjacency (g : ImportGraph) : Dictionary Int (List Int) :=
  g.resolvedEdges.foldl
    (fun a e => a.adjust e.importerId fun targets => targets ++ e.targetId.toList)
    (g.table.keys.map fun id => (id, []))

theorem mem_importsOf {g : ImportGraph} {id : Int} {e : ImportEdge} :
    e ∈ g.importsOf id ↔ e ∈ g.edges ∧ e.importerId = id := by
  simp [importsOf]

theorem mem_importsTo {g : ImportGraph} {id : Int} {e : ImportEdge} :
    e ∈ g.importsTo id ↔ e ∈ g.edges ∧ e.targetId = some id := by
  simp [importsTo]

end ImportAtlas.ImportGraph
