import ImportAtlas.Build
import ImportAtlas.Dot.Diagram
import ImportAtlas.Graph.Cycle
import ImportAtlas.Inventory
import ImportAtlas.Render
import ImportAtlas.Setting.Load
import ImportAtlas.Store.Graph

/-!
# A run

A run takes the inventory, builds the graph, saves it, writes its diagram and renders it, each step
only if all before it succeed. Nothing is written before the graph is complete.
-/

namespace ImportAtlas

/-- What a run is to do with the graph. -/
structure Outputs where
  /-- Whether the graph is saved to the database. -/
  persist : Bool := true
  /-- Whether the diagram is rendered, and so also written. -/
  render : Bool := true
  /-- Whether the diagram is written. -/
  describe : Bool := true

/-- What a run has produced. -/
structure RunResult where
  graph : ImportGraph
  dotText : String
  cycles : List CycleGroup
  databasePath : Option Path := none
  dotPath : Option Path := none
  imagePath : Option Path := none

namespace RunResult

/-- The numbers that sum a run up, by name. -/
def summary (r : RunResult) : List (String × Nat) :=
  let g := r.graph
  let ofLocal := g.edgesOfKind (some .localFile)
  [("files", g.files.length),
    ("imports", g.edges.length),
    ("local", ofLocal.length),
    ("library", (g.edgesOfKind (some .library)).length),
    ("unclassified", (g.edgesOfKind none).length),
    ("resolved", g.resolvedEdges.length),
    -- Only a local import can be unresolved; the others never had a target.
    ("unresolved_local", (ofLocal.filter fun e => e.targetPath.isNone).length),
    ("cycles", r.cycles.length)]

end RunResult

namespace Settings

/-- What the settings ask of the inventory. -/
def inventory (s : Settings) : Inventory.Request where
  directories := s.scanDirectories
  extensions := s.extensions
  trackedOnly := s.trackedOnly.isTruthy
  excludePatterns := s.excludePatterns
  timeout := s.timeout

/-- The path of the output file that a setting names. -/
def outputFile (s : Settings) (file : Value) : Act Path :=
  s.outputPath <$> textOf file

/-- The address that the nodes of a graph link to. It is not looked at if there are no nodes. -/
def linkText (s : Settings) (g : ImportGraph) : Act (Option String) :=
  if s.linkBase.isTruthy && !g.files.isEmpty then some <$> Act.spell s.linkBase else pure none

/-- How the settings call the layout program. -/
def layout (s : Settings) : Layout where
  engine := s.layoutEngine
  command := s.dotCommand
  timeout := s.timeout

end Settings

/-- Does a run. -/
def run (s : Settings) (outputs : Outputs) : Act RunResult := do
  let paths ← Inventory.list s.inventory
  let graph ← buildGraph s paths
  let dotText := graph.dotText (← s.linkText graph)
  -- From here on files are written; all that can go wrong with the sources has gone wrong.
  let databasePath ←
    if outputs.persist then
      let path ← s.outputFile s.databaseFile
      Store.session path true (Store.save graph)
      pure (some path)
    else
      pure none
  let dotPath ←
    if outputs.describe || outputs.render then
      let path ← s.outputFile s.dotFile
      writeDiagram dotText path
      pure (some path)
    else
      pure none
  let imagePath ←
    if outputs.render then
      let path := s.outputPath s.imageFile
      s.layout.render (← s.outputFile s.dotFile) path
      pure (some path)
    else
      pure none
  return { graph, dotText, cycles := graph.cycles, databasePath, dotPath, imagePath }

/-- Does a run for the project at `path`, with settings from all sources. -/
def generate (path : String) (file : Option String) (said : Dictionary String Value)
    (outputs : Outputs) : Act RunResult := do
  let settings ← Settings.load file (("project_root", .text path) :: said)
  run settings outputs

end ImportAtlas
