import ImportAtlas.Graph.Component
import ImportAtlas.Graph.Query

/-!
# Import cycles

A cycle group is a strongly connected component of more than one file. Groups are listed by size,
the largest first, and then by their files, so that the listing does not depend on ids or on the
order of insertion.
-/

namespace ImportAtlas

/-- Files that import each other, directly or through one another. -/
structure CycleGroup where
  /-- The relative paths of the files, in ascending order. -/
  files : List String
  /-- How many imports stay within the group. -/
  internalEdges : Nat
  deriving DecidableEq, Repr

namespace CycleGroup

/-- Whether a group may be listed before another: it is larger, or as large and not later in the
order of its files. -/
def precedes (a b : CycleGroup) : Bool :=
  b.files.length < a.files.length ||
    (a.files.length == b.files.length && !decide (b.files < a.files))

end CycleGroup

namespace ImportGraph

/-- The group of the files with ids `component`; `a` leads from each file to those it imports. -/
def cycleGroup (g : ImportGraph) (a : Adjacency) (component : List Int) : CycleGroup where
  files := ((component.filterMap g.file?).map (·.relativePath)).mergeSort fun a b => a ≤ b
  internalEdges := (component.flatMap a.successors).countP component.contains

/-- The groups of files that import each other. -/
def cycles (g : ImportGraph) : List CycleGroup :=
  let a : Adjacency := g.adjacency
  let groups := (a.components.filter fun c => 2 ≤ c.length).map (g.cycleGroup a)
  groups.mergeSort CycleGroup.precedes

end ImportGraph

end ImportAtlas
