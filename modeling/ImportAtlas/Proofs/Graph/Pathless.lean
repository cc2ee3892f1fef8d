import ImportAtlas.Dot.Diagram
import ImportAtlas.Graph.Cycle
import ImportAtlas.Proofs.Graph.Insertion

/-!
# Graphs but for target paths

The path of a target outside the inventory is kept with an import and never looked at again. Graphs
that are the same but for such paths take the same files and imports, and have the same cycles and
the same diagram.

## Key results

- `ImportGraph.insertImport_alike`: an import is taken, or refused for the same reason
- `ImportGraph.cycles_eq_of_alike`, `ImportGraph.dotText_eq_of_alike`: what is made of a graph
-/

namespace ImportAtlas

/-- An import without the path of its target. -/
def ImportEdge.withoutPath (e : ImportEdge) : ImportEdge :=
  { e with targetPath := none }

/-- The path of an import is no part of its key. -/
theorem ImportEdge.key_withoutPath (e : ImportEdge) : e.withoutPath.key = e.key :=
  rfl

namespace ImportGraph

/-- A graph without the paths of targets. -/
def withoutPaths (g : ImportGraph) : ImportGraph :=
  { g with edges := g.edges.map (·.withoutPath) }

/-- Two graphs are the same but for the paths of targets. -/
def Alike (g g' : ImportGraph) : Prop :=
  g'.withoutPaths = g.withoutPaths

namespace Alike

variable {g g' : ImportGraph}

/-- A graph is like itself. -/
theorem refl (g : ImportGraph) : g.Alike g :=
  rfl

theorem table_eq (h : g.Alike g') : g'.table = g.table :=
  (congrArg ImportGraph.table h :)

theorem idsByPath_eq (h : g.Alike g') : g'.idsByPath = g.idsByPath :=
  (congrArg ImportGraph.idsByPath h :)

/-- Graphs that are alike have the same imports, but for their paths. -/
theorem edges_eq (h : g.Alike g') :
    g'.edges.map (·.withoutPath) = g.edges.map (·.withoutPath) :=
  (congrArg ImportGraph.edges h :)

/-- So they have the same keys of imports. -/
theorem edgeKeys_eq (h : g.Alike g') : g'.edgeKeys = g.edgeKeys :=
  (congrArg ImportGraph.edgeKeys h :)

/-- They have the same files. -/
theorem files_eq (h : g.Alike g') : g'.files = g.files := by
  rw [files, files, h.table_eq]

/-- Ids are taken in both or in neither. -/
theorem hasId_eq (h : g.Alike g') (id : Int) : g'.hasId id = g.hasId id := by
  rw [hasId, hasId, h.table_eq]

/-- The same file is at a path in both. -/
theorem fileAt?_eq (h : g.Alike g') (path : String) : g'.fileAt? path = g.fileAt? path := by
  have hfile : g'.file? = g.file? := by
    funext id
    rw [file?, file?, h.table_eq]
  rw [fileAt?, fileAt?, h.idsByPath_eq, hfile]

/-- Imports that differ in their path only keep graphs alike. -/
theorem withEdge {e e' : ImportEdge} (h : g.Alike g') (he : e'.withoutPath = e.withoutPath) :
    (g.withEdge e).Alike (g'.withEdge e') := by
  have hkey : e'.key = e.key := by rw [← e'.key_withoutPath, he, e.key_withoutPath]
  simp only [Alike, withoutPaths, ImportGraph.withEdge, List.map_append, h.edges_eq, h.table_eq,
    h.idsByPath_eq, h.edgeKeys_eq, List.map_singleton, he, hkey]

end Alike

variable {g g' : ImportGraph}

/-- An import is taken by both graphs, or refused by both for the same reason. -/
theorem insertImport_alike {e e' : ImportEdge} (h : g.Alike g')
    (he : e'.withoutPath = e.withoutPath) :
    insertImport e g = .ok e (g.withEdge e) ∧ insertImport e' g' = .ok e' (g'.withEdge e') ∨
      ∃ fault, insertImport e g = .error fault g ∧ insertImport e' g' = .error fault g' := by
  have himporter : e'.importerId = e.importerId := (congrArg ImportEdge.importerId he :)
  have hpath : e'.importerPath = e.importerPath := (congrArg ImportEdge.importerPath he :)
  have hlocator : e'.locator = e.locator := (congrArg ImportEdge.locator he :)
  have htarget : e'.targetId = e.targetId := (congrArg ImportEdge.targetId he :)
  have hkey : e'.key = e.key := by rw [ImportEdge.key, ImportEdge.key, hpath, hlocator]
  rw [insertImport_eq, insertImport_eq, himporter, hpath, hlocator, htarget, hkey, h.edgeKeys_eq,
    h.hasId_eq, funext h.hasId_eq]
  -- The tests of both graphs are now the same ones.
  split
  · exact .inr ⟨_, rfl, rfl⟩
  · split
    · exact .inr ⟨_, rfl, rfl⟩
    · split
      · exact .inr ⟨_, rfl, rfl⟩
      · exact .inl ⟨rfl, rfl⟩

/-- The imports that lead to files of the graph are found by their ids alone. -/
theorem adjacency_withoutPaths (g : ImportGraph) : g.withoutPaths.adjacency = g.adjacency := by
  have hresolved : g.withoutPaths.resolvedEdges = g.resolvedEdges.map (·.withoutPath) := by
    rw [resolvedEdges, withoutPaths, List.filter_map]
    rfl
  rw [adjacency, hresolved, List.foldl_map]
  rfl

/-- Cycles do not depend on the paths of imports. -/
theorem cycles_eq_of_alike (h : g.Alike g') : g'.cycles = g.cycles := by
  have hadjacency : g'.adjacency = g.adjacency := by
    rw [← g'.adjacency_withoutPaths, h, g.adjacency_withoutPaths]
  have hgroup : g'.cycleGroup = g.cycleGroup := by
    have hfile : g'.file? = g.file? := by
      funext id
      rw [file?, file?, h.table_eq]
    funext a component
    rw [cycleGroup, cycleGroup, hfile]
  rw [cycles, cycles, hadjacency, hgroup]

/-- Nor does the diagram. -/
theorem dotText_eq_of_alike (h : g.Alike g') (linkBase : Option String) :
    g'.dotText linkBase = g.dotText linkBase := by
  have hedges (g : ImportGraph) : g.edges.filterMap (fun e => e.targetId.map fun target =>
      DotEdge.mk e.importerId target) = (g.edges.map (·.withoutPath)).filterMap fun e =>
        e.targetId.map fun target => DotEdge.mk e.importerId target := by
    rw [List.filterMap_map]
    rfl
  rw [dotText, dotText, diagram, diagram, h.files_eq, hedges g', hedges g, h.edges_eq]

end ImportGraph

end ImportAtlas
