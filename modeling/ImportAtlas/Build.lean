import ImportAtlas.Graph.Query
import ImportAtlas.Import.Locator
import ImportAtlas.Import.Resolve
import ImportAtlas.Setting.Classifier
import ImportAtlas.Source

/-!
# Building the graph of a project

First every file of the inventory is put into the graph, so that imports may lead to files that
come later. Then each file is read and each of its statements becomes an import. A statement
without a locator is skipped, and one that imports the same locator again is ignored; both are
counted and logged. Any other fault stops the work, with what was counted so far.
-/

namespace ImportAtlas

/-- A graph that is being built, with the statements that did not become imports. -/
structure Survey where
  graph : ImportGraph := .empty
  skippedLines : Nat := 0
  duplicateImports : Nat := 0

namespace Survey

/-- The channel of the builder's log records. -/
def channel : String := "graph.builder"

/-- The source file of a path, seen from the project root. -/
def sourceOf (s : Settings) (path : String) : Act SourceFile := do
  if path = "" then
    throw .noPath
  let relative := (Path.ofText path).relativeTo (← Act.workingPath) (Path.ofText s.projectRoot)
  let f := SourceFile.ofPaths path relative.text
  match f.fault? with
  | none => return f
  | some fault => .fail (.invalidPath (Path.ofText path).text fault.reason)

/-- Puts the file of a path into a graph. -/
def addPath (s : Settings) (g : ImportGraph) (path : String) : Act ImportGraph := do
  let (g, _) ← Act.ofExcept (fun fault => .failure (.graph fault)) (g.addFile (← sourceOf s path))
  return g

/-- The import that `file` makes by `locator`: its kind, and its target if it is local. -/
def edgeOf (s : Settings) (c : Classifier) (g : ImportGraph) (file : SourceFile)
    (locator : String) : Act ImportEdge := do
  let edge : ImportEdge := {
    importerId := file.id
    importerPath := file.relativePath
    locator
    kind := ← s.kindOf c locator }
  if edge.kind != some .localFile then
    return edge
  match ← resolveLocator locator file.absolutePath s.baseDirectory s.extensions with
  | none => return edge
  | some target =>
    -- A target on disk that the inventory leaves out is known by its path alone.
    match g.fileAt? target with
    | some found => return { edge with targetPath := some target, targetId := some found.id }
    | none =>
      Act.log .debug channel
        (file.relativePath ++ ": " ++ locator ++ " resolves outside the inventory")
      return { edge with targetPath := some target }

/-- Takes one statement of a file into account. -/
def addStatement (s : Settings) (c : Classifier) (file : SourceFile) (survey : Survey)
    (statement : List Char) : Act Survey := do
  match ImportAtlas.locator statement with
  -- A line that names nothing is skipped with a warning, and the survey goes on.
  | .error fault =>
    let failure := Failure.noLocator (String.ofList statement) fault.reason
    Act.log .warning channel (file.relativePath ++ ": " ++ failure.text)
    return { survey with skippedLines := survey.skippedLines + 1 }
  | .ok found =>
    let locator := String.ofList found
    let edge ← Act.ofExcept .edge (← edgeOf s c survey.graph file locator).checked
    match ImportGraph.insertImport edge survey.graph with
    | .ok _ graph => return { survey with graph }
    -- A second import of one locator is counted and left out; any other fault stops the survey.
    | .error (.duplicateImport _ _) graph =>
      Act.log .debug channel
        (file.relativePath ++ ": duplicate import of " ++ locator ++ " ignored")
      return { survey with graph, duplicateImports := survey.duplicateImports + 1 }
    | .error fault _ => .fail (.graph fault)

/-- Reads a file and takes its statements into account. -/
def addFile (s : Settings) (c : Classifier) (survey : Survey) (file : SourceFile) :
    Act Survey := do
  let text ← readSource (Path.ofText file.absolutePath)
  (statements s.joinBlocks.isTruthy text.toList).foldlM (addStatement s c file) survey

/-- Reads files one after the other, up to the first one that cannot be read. -/
def addFiles (s : Settings) (c : Classifier) (survey : Survey) :
    List SourceFile → Act (Survey × Option Error)
  | [] => return (survey, none)
  | file :: files => do
    -- The counters of the files read before the error are kept for the record that closes the
    -- survey.
    let next ← try Except.ok <$> addFile s c survey file catch e => pure (Except.error e)
    match next with
    | .ok survey => addFiles s c survey files
    | .error e => return (survey, some e)

/-- Surveys the files of an inventory. -/
def ofPaths (s : Settings) (c : Classifier) (paths : List String) :
    Act (Survey × Option Error) := do
  let placed ← try Except.ok <$> paths.foldlM (addPath s) .empty catch e => pure (Except.error e)
  match placed with
  | .error e => return ({}, some e)
  | .ok graph =>
    -- Every file is in the graph before the first import is, so imports may lead forward.
    let (survey, stopped) ← addFiles s c { graph } graph.files
    if stopped.isNone then
      Act.log .info channel ("Graph built: " ++ toString survey.graph.files.length ++ " files, "
        ++ toString survey.graph.edges.length ++ " imports ("
        ++ toString survey.skippedLines ++ " lines skipped, "
        ++ toString survey.duplicateImports ++ " duplicates)")
    return (survey, stopped)

end Survey

/-- The import graph of the files of an inventory. -/
def buildGraph (s : Settings) (paths : List String) : Act ImportGraph := do
  let (survey, stopped) ← Survey.ofPaths s (← s.classifier) paths
  match stopped with
  | none => return survey.graph
  | some e => throw e

end ImportAtlas
