import ImportAtlas.Graph.Walk

/-!
# Strongly connected components

Two nodes belong together if each can be reached from the other. The components come in the order
in which a depth-first walk from the keys closes them: a component stands before every other one
from which it can be reached.
-/

namespace ImportAtlas.Adjacency

/-- The strongly connected components, each in ascending order, in the order in which a walk from
the keys closes them. -/
def components (a : Adjacency) : List (List Int) :=
  (a.keys.foldl Walk.visit ({} : Walk a)).components

end ImportAtlas.Adjacency
