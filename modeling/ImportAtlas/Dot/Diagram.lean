import ImportAtlas.Graph.Query

/-!
# Diagrams in the DOT language

A diagram is a strict directed graph: fixed attributes, one statement for each node, one for each
edge. Texts stand in double quotes, with a backslash before each double quote and each backslash,
so no file name can end the quotes it stands in.
-/

namespace ImportAtlas

/-- A text between double quotes. -/
def dotQuoted (s : String) : String :=
  "\"" ++ String.ofList (s.toList.flatMap fun c => if c = '"' ∨ c = '\\' then ['\\', c] else [c])
    ++ "\""

/-- The name of the node with an id. -/
def dotNodeName (id : Int) : String :=
  "n" ++ toString id

/-- A node and its texts. An empty text is left out like a missing one. -/
structure DotNode where
  id : Int
  label : String
  url : Option String := none
  tooltip : Option String := none
  deriving DecidableEq, Repr

namespace DotNode

/-- The attributes of a node, by name. -/
def attributes (n : DotNode) : List (String × String) :=
  [("label", n.label), ("URL", n.url.getD ""), ("tooltip", n.tooltip.getD "")].filter (·.2 != "")

/-- The statement of a node. -/
def text (n : DotNode) : String :=
  let body := ", ".intercalate <|
    n.attributes.map fun (name, value) => name ++ "=" ++ dotQuoted value
  dotNodeName n.id ++ " [" ++ body ++ "];"

end DotNode

/-- An edge from one node to another. -/
structure DotEdge where
  source : Int
  target : Int
  deriving DecidableEq, Repr

/-- The statement of an edge. -/
def DotEdge.text (e : DotEdge) : String :=
  dotNodeName e.source ++ " -> " ++ dotNodeName e.target ++ ";"

/-- A strict directed graph with its statements in order. -/
structure DotDiagram where
  name : String
  nodes : List DotNode
  edges : List DotEdge
  deriving DecidableEq, Repr

namespace DotDiagram

/-- The attributes that every diagram has. -/
def fixedAttributes : List String :=
  ["fontname=\"sans-serif\"",
    "rankdir=\"LR\"",
    "page=\"130.0,130.0\"",
    "node [fontcolor=\"black\", fontname=\"sans-serif\", fontsize=8.0, shape=plain]",
    "edge [arrowhead=\"normal\", arrowsize=0.5, color=\"gray\", fontname=\"sans-serif\", " ++
      "weight=0.1]"]

/-- The statements of a diagram: attributes, nodes, edges. -/
def statements (d : DotDiagram) : List String :=
  fixedAttributes ++ d.nodes.map (·.text) ++ d.edges.map (·.text)

/-- The text of a diagram, one statement a line. -/
def text (d : DotDiagram) : String :=
  "strict digraph " ++ d.name ++ " \x7b\n" ++
    String.join (d.statements.map fun s => "  " ++ s ++ "\n") ++ "\x7d\n"

/-- The name that a diagram has unless told otherwise. -/
def defaultName : String :=
  "imports"

end DotDiagram

namespace ImportGraph

/-- The address that the node of a file links to. There is none without a base. -/
def linkTo (linkBase : Option String) (relativePath : String) : Option String :=
  match linkBase with
  | none | some "" => none
  | some base => some (base ++ relativePath)

/-- The diagram of a graph: a node for each file, an edge for each import whose target belongs to
the graph. -/
def diagram (g : ImportGraph) (linkBase : Option String) : DotDiagram where
  name := DotDiagram.defaultName
  nodes := g.files.map fun f =>
    { id := f.id, label := f.baseName, url := linkTo linkBase f.relativePath
      tooltip := some f.relativePath }
  edges := g.edges.filterMap fun e => e.targetId.map fun target => ⟨e.importerId, target⟩

/-- The text of the diagram of a graph. -/
def dotText (g : ImportGraph) (linkBase : Option String) : String :=
  (g.diagram linkBase).text

end ImportGraph

end ImportAtlas
