import ImportAtlas.Build
import ImportAtlas.Proofs.Graph.Insertion
import ImportAtlas.Proofs.Log
import ImportAtlas.Proofs.Path.Normal
import ImportAtlas.Proofs.Setting.Classifier

/-!
# The graph that is built

Files are told apart by their relative paths, which are as different as the paths themselves. So
an import can only repeat one of its own file, and the imports of a file depend on its own text.

## Key results

- `Survey.addStatement_takes`: what a statement can do to a survey
- `Survey.addStatements_ok`: the statements of one file become its imports, each locator once
- `Survey.addFiles_ok`: files are read one after the other, and each adds imports of its own
- `buildGraph_spec`: all files and all imports of the graph that is built
-/

namespace ImportAtlas

namespace Survey

variable {s : Settings} {c : Classifier} {host host₀ : Host} {g : ImportGraph}

/-! ## Files -/

/-- A path as it is seen from the project root. -/
def relativePath (s : Settings) (here : Place) (path : String) : String :=
  ((Path.ofText path).relativeTo (.ofPlace here) (Path.ofText s.projectRoot)).text

/-- The file of a path, with an id. -/
def fileOf (s : Settings) (here : Place) (path : String) (id : Nat) : SourceFile :=
  { SourceFile.ofPaths path (relativePath s here path) with id }

@[simp] theorem absolutePath_fileOf (s : Settings) (here : Place) (path : String) (id : Nat) :
    (fileOf s here path id).absolutePath = path := by
  simp only [fileOf, SourceFile.ofPaths]

@[simp] theorem relativePath_fileOf (s : Settings) (here : Place) (path : String) (id : Nat) :
    (fileOf s here path id).relativePath = relativePath s here path := by
  simp only [fileOf, SourceFile.ofPaths]

@[simp] theorem id_fileOf (s : Settings) (here : Place) (path : String) (id : Nat) :
    (fileOf s here path id).id = id := rfl

/-- The files of paths, numbered from 1. -/
def filesOf (s : Settings) (here : Place) (paths : List String) : List SourceFile :=
  (paths.zipIdx 1).map fun (path, id) => fileOf s here path id

/-- A path whose file passes its checks: it is straight, and it is not the project root. -/
structure IsAddable (s : Settings) (here : Place) (path : String) : Prop where
  isStraight : (Path.ofText path).IsStraight
  names_ne : (Path.ofText path).names ≠
    ((Path.ofText s.projectRoot).absolute (.ofPlace here)).names

/-- A path that can be put into the graph: it is normal, and it is not the project root. -/
structure IsPlaceable (s : Settings) (here : Place) (path : String) : Prop where
  isNormal : Path.IsNormal path
  names_ne : (Path.ofText path).names ≠
    ((Path.ofText s.projectRoot).absolute (.ofPlace here)).names

/-- What can be placed can be added. -/
theorem IsPlaceable.isAddable {here : Place} {path : String} (h : IsPlaceable s here path) :
    IsAddable s here path :=
  ⟨h.isNormal.isStraight, h.names_ne⟩

/-- A path more makes a file more, with the next id. -/
theorem filesOf_append_singleton (here : Place) (paths : List String) (path : String) :
    filesOf s here (paths ++ [path]) =
      filesOf s here paths ++ [fileOf s here path (paths.length + 1)] := by
  simp [filesOf, List.zipIdx_append, Nat.add_comm]

/-- The files made of paths have these paths. -/
theorem paths_filesOf (here : Place) (paths : List String) :
    (filesOf s here paths).map (·.absolutePath) = paths := by
  rw [filesOf, List.map_map]
  exact List.zipIdx_map_fst 1 paths

/-- They are called by these paths seen from the project root. -/
theorem relativePaths_filesOf (here : Place) (paths : List String) :
    (filesOf s here paths).map (·.relativePath) = paths.map (relativePath s here) := by
  induction paths using List.reverseRecOn with
  | nil => rfl
  | append_singleton paths path ih =>
    rw [filesOf_append_singleton, List.map_append, ih, List.map_append, List.map_singleton,
      List.map_singleton, relativePath_fileOf]

/-- Each of the files is that of a path. -/
theorem exists_eq_fileOf {here : Place} {paths : List String} {f : SourceFile}
    (h : f ∈ filesOf s here paths) : ∃ path ∈ paths, ∃ id, f = fileOf s here path id := by
  obtain ⟨⟨path, id⟩, hmem, rfl⟩ := List.mem_map.1 h
  exact ⟨path, (List.fst_mem_of_mem_zipIdx hmem), id, rfl⟩

/-- The next id after files that are numbered from 1. -/
theorem nextId_filesOf (here : Place) (paths : List String) :
    nextId ((filesOf s here paths).map (·.id)) = (paths.length + 1 : Nat) := by
  induction paths using List.reverseRecOn with
  | nil => rfl
  | append_singleton paths path ih =>
    have hmem : ((paths.length + 1 : Nat) : Int) ∈
        (filesOf s here (paths ++ [path])).map (·.id) := by
      simp [filesOf_append_singleton]
    rw [nextId_eq hmem, List.length_append]
    · simp
    · -- All ids before it are below the next one, which it is.
      intro id hid
      rw [filesOf_append_singleton, List.map_append, List.mem_append] at hid
      rcases hid with hid | hid
      · have hlt := lt_nextId hid
        rw [ih] at hlt
        omega
      · simp at hid
        omega

/-- The checks of a file are that its path is absolute and that it has names. -/
theorem fault?_ofPaths {here : Place} {path : String} (h : IsAddable s here path) :
    (SourceFile.ofPaths path (relativePath s here path)).fault? = none := by
  have hstraight := h.isStraight
  have hrelative := hstraight.relativeTo_text_ne_empty (.ofPlace here) (Path.ofText s.projectRoot)
  have hname := hstraight.relativeTo_name_ne_empty (.ofPlace here) (Path.ofText s.projectRoot)
    h.names_ne
  -- Its relative path is read as it has been written, so no field is empty.
  have hread := Path.ofText_text
    (hstraight.wellFormed_relativeTo (.ofPlace here) (Path.ofText s.projectRoot))
  simp only [SourceFile.fault?, SourceFile.ofPaths, relativePath, hstraight.isAbsolute, hread,
    hrelative, hname, Bool.not_true, Bool.false_eq_true, ↓reduceIte]

/-- What can be added is made a file. -/
theorem sourceOf_ok {path : String} (h : IsAddable s host.folder path) :
    sourceOf s path host =
      .ok (SourceFile.ofPaths path (relativePath s host.folder path)) host := by
  -- An absolute path is not empty, so the file passes the check of its fields.
  have hempty : path ≠ "" := by
    rintro rfl
    exact absurd h.isStraight.isAbsolute (by decide)
  have hfault := fault?_ofPaths h
  unfold sourceOf
  simp only [hempty, ↓reduceIte]
  rw [EStateM.bind_of_ok _ (Act.workingPath_eq host)]
  simp only [relativePath] at hfault ⊢
  simp only [hfault]
  rfl

/-- A new path goes into the graph of those before it, under the next id. -/
theorem addPath_ok {paths : List String} {path : String} (hg : g.Consistent)
    (hfiles : g.files = filesOf s host.folder paths) (hnew : path ∉ paths)
    (h : IsAddable s host.folder path) :
    ∃ g', addPath s g path host = .ok g' host ∧ g'.Consistent ∧
      g'.files = filesOf s host.folder (paths ++ [path]) ∧ g'.edges = g.edges := by
  have hpath : (SourceFile.ofPaths path (relativePath s host.folder path)).absolutePath ∉
      g.idsByPath.keys := by
    rw [hg.keys_idsByPath, hfiles, paths_filesOf]
    exact hnew
  -- A file of the inventory has no id of its own and gets the next one.
  have hzero : (SourceFile.ofPaths path (relativePath s host.folder path)).id = 0 := rfl
  have hid : g.idFor (SourceFile.ofPaths path (relativePath s host.folder path)) =
      (paths.length + 1 : Nat) := by
    rw [ImportGraph.idFor, if_pos hzero, hg.keys_table, hfiles, nextId_filesOf]
  have hfree := ImportGraph.idFor_not_mem (g := g)
    (f := SourceFile.ofPaths path (relativePath s host.folder path)) hzero
  have hinsert := ImportGraph.insertFile_of_not_mem hpath hfree
  rw [hid] at hfree hinsert
  refine ⟨_, ?_, hg.withFile hpath hfree, ?_, rfl⟩
  · unfold addPath
    rw [EStateM.bind_of_ok _ (sourceOf_ok h)]
    simp only [ImportGraph.addFile, hinsert]
    rfl
  · rw [ImportGraph.files_withFile hpath hfree, hfiles, filesOf_append_singleton]
    rfl

/-- Paths that can be added, and come once, are all put into the graph in order. -/
theorem addPaths_ok (before new : List String) (hg : g.Consistent)
    (hfiles : g.files = filesOf s host.folder before) (hnodup : (before ++ new).Nodup)
    (h : ∀ path ∈ new, IsAddable s host.folder path) :
    ∃ g', new.foldlM (addPath s) g host = .ok g' host ∧ g'.Consistent ∧
      g'.files = filesOf s host.folder (before ++ new) ∧ g'.edges = g.edges := by
  induction new generalizing g before with
  | nil => exact ⟨g, rfl, hg, by rw [hfiles, List.append_nil], rfl⟩
  | cons path new ih =>
    simp only [List.mem_cons, forall_eq_or_imp] at h
    -- A path of the list is new until its turn comes.
    have hnew : path ∉ before :=
      fun hmem => List.disjoint_of_nodup_append hnodup hmem List.mem_cons_self
    obtain ⟨g₁, hadd, hg₁, hfiles₁, hedges₁⟩ := addPath_ok hg hfiles hnew h.1
    rw [List.append_cons] at hnodup
    obtain ⟨g', hrest, hg', hfiles', hedges'⟩ := ih _ hg₁ hfiles₁ hnodup h.2
    refine ⟨g', ?_, hg', by rw [hfiles', ← List.append_cons], hedges'.trans hedges₁⟩
    rw [List.foldlM_cons, EStateM.bind_of_ok _ hadd]
    exact hrest

/-- Different paths of the inventory have different relative paths. -/
theorem nodup_relativePaths {here : Place} {paths : List String} (hnodup : paths.Nodup)
    (h : ∀ path ∈ paths, IsPlaceable s here path) :
    ((filesOf s here paths).map (·.relativePath)).Nodup := by
  rw [relativePaths_filesOf]
  exact hnodup.map_on fun path hpath path' hpath' heq =>
    Path.relativeTo_text_injective _ _ (h path hpath).isNormal (h path' hpath').isNormal heq

/-! ## Imports -/

/-- The import that `file` makes by `locator`. A local one leads to the first of its candidates that
is a file of the tree, and to the file of the inventory with that path, if there is one. -/
def importOf (s : Settings) (c : Classifier) (t : Tree Content) (here : Place)
    (files : List SourceFile) (file : SourceFile) (locator : String) : ImportEdge :=
  let kind := c.classify locator
  let target :=
    if kind = some .localFile then
      (candidatePaths locator file.absolutePath s.baseDirectory s.extensions).find?
        (t.leadsToFile here)
    else
      none
  { importerId := file.id
    importerPath := file.relativePath
    locator
    kind
    targetId := target.bind fun path =>
      (files.find? fun f => f.absolutePath == path).map (·.id)
    targetPath := target }

/-- The locators of statements, without those of statements that have none. -/
def readLocators (statements : List (List Char)) : List String :=
  statements.filterMap fun statement => (locator statement).toOption.map String.ofList

/-- The locators that a text imports, each once, where it comes first. -/
def locatorsOf (s : Settings) (text : String) : List String :=
  (readLocators (statements s.joinBlocks.isTruthy text.toList)).eraseDups

variable {files : List SourceFile} {file : SourceFile}

@[simp] theorem key_importOf (s : Settings) (c : Classifier) (t : Tree Content) (here : Place)
    (files : List SourceFile) (file : SourceFile) (locator : String) :
    (importOf s c t here files file locator).key = (file.relativePath, locator) := rfl

/-- The import that is made of a locator is an acceptable one. -/
theorem checked_importOf (c : Classifier) (t : Tree Content) (here : Place)
    (files : List SourceFile) {locator : String} (hpath : file.relativePath ≠ "")
    (hlocator : locator ≠ "") :
    (importOf s c t here files file locator).checked =
      .ok (importOf s c t here files file locator) := by
  have hfault : (importOf s c t here files file locator).fault? = none := by
    simp only [ImportEdge.fault?, importOf, hpath, hlocator, ↓reduceIte]
  rw [ImportEdge.checked, hfault]

/-- What an import is made of does not change by logging. -/
theorem importOf_of_logged (h : host₀.Logged host) (hlog : host₀.HasLogFile) :
    importOf s c host.tree host.folder files file =
      importOf s c host₀.tree host₀.folder files file := by
  have hleads : host.tree.leadsToFile host.folder = host₀.tree.leadsToFile host₀.folder :=
    funext (h.leadsToFile_eq hlog)
  funext locator
  simp only [importOf, hleads]

/-- The target of an import is a file of the graph. -/
theorem targetId_importOf_mem (hg : g.Consistent) {t : Tree Content} {here : Place}
    {locator : String} {id : Int}
    (h : (importOf s c t here g.files file locator).targetId = some id) : id ∈ g.table.keys := by
  obtain ⟨path, -, hfind⟩ := Option.bind_eq_some_iff.1 h
  obtain ⟨f, hf, rfl⟩ := Option.map_eq_some_iff.1 hfind
  exact hg.id_mem_keys (List.mem_of_find?_eq_some hf)

/-- A locator is resolved to the first of its candidates that leads to a file. -/
theorem resolveLocator_ok (hlog : host.HasLogFile) (locator importer baseDirectory : String)
    (extensions : List String) :
    ∃ host', resolveLocator locator importer baseDirectory extensions host =
        .ok ((candidatePaths locator importer baseDirectory extensions).find?
          (host.tree.leadsToFile host.folder)) host' ∧
      host.Logged host' := by
  unfold resolveLocator
  rw [EStateM.bind_get]
  cases (candidatePaths locator importer baseDirectory extensions).find?
      (host.tree.leadsToFile host.folder) with
  | some target => exact ⟨host, rfl, .refl host⟩
  -- Only a failure is noted, in the log.
  | none =>
    obtain ⟨host', hrecord, hlogged⟩ := Host.logged_log hlog .debug "scanning.resolver"
      ("Unresolved local import " ++ locator ++ " from " ++ importer)
    refine ⟨host', ?_, hlogged⟩
    dsimp only
    rw [EStateM.bind_of_ok _ hrecord]
    rfl

/-- An import is made as `importOf` says; what is logged on the way is all that changes. -/
theorem edgeOf_ok (hstarts : ∀ v ∈ s.localStarts, v.isText = true) (hlog : host.HasLogFile)
    (hg : g.Consistent) (file : SourceFile) (locator : String) :
    ∃ host', edgeOf s c g file locator host =
        .ok (importOf s c host.tree host.folder g.files file locator) host' ∧
      host.Logged host' := by
  unfold edgeOf importOf
  rw [EStateM.bind_of_ok _ (Settings.kindOf_ok hstarts c locator)]
  by_cases hlocal : c.classify locator = some .localFile
  · obtain ⟨host₁, hresolve, hlogged₁⟩ :=
      resolveLocator_ok hlog locator file.absolutePath s.baseDirectory s.extensions
    simp only [hlocal, bne_self_eq_false, Bool.false_eq_true, ↓reduceIte]
    rw [EStateM.bind_of_ok _ hresolve]
    cases (candidatePaths locator file.absolutePath s.baseDirectory s.extensions).find?
        (host.tree.leadsToFile host.folder) with
    | none => exact ⟨host₁, rfl, hlogged₁⟩
    | some target =>
      -- Asking the indexes of the graph is searching its files.
      simp only [hg.fileAt?_eq_find? target, Option.bind_some]
      cases g.files.find? fun f => f.absolutePath == target with
      | some found => exact ⟨host₁, rfl, hlogged₁⟩
      | none =>
        -- The target is outside the inventory, which is logged.
        obtain ⟨host₂, hrecord, hlogged₂⟩ := Host.logged_log (hlogged₁.hasLogFile hlog) .debug
          channel (file.relativePath ++ ": " ++ locator ++ " resolves outside the inventory")
        refine ⟨host₂, ?_, hlogged₁.trans hlogged₂⟩
        dsimp only
        rw [EStateM.bind_of_ok _ hrecord]
        rfl
  · refine ⟨host, ?_, .refl host⟩
    simp only [bne_iff_ne, ne_eq, hlocal, not_false_eq_true, ↓reduceIte]
    rfl

/-- The import by a locator that was read is made, and no check stops it. It is the one that would
have been made at first, since the tree has the same outline. -/
theorem checkedEdge_ok (hstarts : ∀ v ∈ s.localStarts, v.isText = true)
    (hlog : host₀.HasLogFile) (hlogged : host₀.Logged host) (hg : g.Consistent)
    (hpath : file.relativePath ≠ "") {statement found : List Char}
    (hfound : ImportAtlas.locator statement = .ok found) :
    ∃ edge host', edgeOf s c g file (String.ofList found) host = .ok edge host' ∧
      edge.checked = .ok edge ∧ host₀.Logged host' ∧
      edge = importOf s c host₀.tree host₀.folder g.files file (String.ofList found) := by
  obtain ⟨host', hmade, hlogged'⟩ :=
    edgeOf_ok (c := c) hstarts (hlogged.hasLogFile hlog) hg file (String.ofList found)
  -- A locator that was read off a statement has a character.
  have hlocator : String.ofList found ≠ "" := by
    intro hempty
    exact ne_nil_of_locator_eq_ok hfound (by simpa using congrArg String.toList hempty)
  rw [importOf_of_logged hlogged hlog] at hmade
  exact ⟨_, host', hmade, checked_importOf c _ _ _ hpath hlocator, hlogged.trans hlogged', rfl⟩

/-- What a statement does to a survey, given the imports that its file makes by locators: it is
skipped, its import is a repetition, or its import is put into the graph. -/
inductive Takes (edge : String → ImportEdge) (survey : Survey) (statement : List Char) :
    Survey → Prop where
  /-- A statement without a locator is counted as skipped. -/
  | skipped {fault : LocatorFault} (hlocator : locator statement = .error fault) :
    Takes edge survey statement { survey with skippedLines := survey.skippedLines + 1 }
  /-- An import that is there already is counted as repeated. -/
  | repeated {found : List Char} (hlocator : locator statement = .ok found)
    (hkey : (edge (String.ofList found)).key ∈ survey.graph.edgeKeys) :
    Takes edge survey statement { survey with duplicateImports := survey.duplicateImports + 1 }
  /-- Any other is added to the graph. -/
  | imported {found : List Char} (hlocator : locator statement = .ok found)
    (hkey : (edge (String.ofList found)).key ∉ survey.graph.edgeKeys) :
    Takes edge survey statement
      { survey with graph := survey.graph.withEdge (edge (String.ofList found)) }

namespace Takes

variable {edge : String → ImportEdge} {survey survey' : Survey} {statement : List Char}

/-- A statement is counted once: as skipped, as a repetition, or as an import. -/
theorem balance (h : Takes edge survey statement survey') :
    survey'.skippedLines + survey'.duplicateImports + survey'.graph.edges.length =
      survey.skippedLines + survey.duplicateImports + survey.graph.edges.length + 1 := by
  -- Each way to take a statement moves exactly one of the three counters.
  cases h with
  | skipped _ =>
    show survey.skippedLines + 1 + survey.duplicateImports + survey.graph.edges.length = _
    omega
  | repeated _ _ =>
    show survey.skippedLines + (survey.duplicateImports + 1) + survey.graph.edges.length = _
    omega
  | imported _ _ =>
    simp only [ImportGraph.withEdge, List.length_append, List.length_singleton]
    omega

/-- An import that was not there before is the statement's own. -/
theorem mem_edges (h : Takes edge survey statement survey') {e : ImportEdge}
    (he : e ∈ survey'.graph.edges) :
    e ∈ survey.graph.edges ∨
      ∃ found, locator statement = .ok found ∧ e = edge (String.ofList found) := by
  -- Only an import that is new adds an edge, behind those that are there.
  cases h with
  | skipped _ => exact .inl he
  | repeated _ _ => exact .inl he
  | @imported found hlocator _ =>
    refine (List.mem_append.1 he).imp_right fun he => ?_
    exact ⟨found, hlocator, List.mem_singleton.1 he⟩

/-- No key is ever given up. -/
theorem edgeKeys_subset (h : Takes edge survey statement survey') :
    survey.graph.edgeKeys ⊆ survey'.graph.edgeKeys := by
  cases h with
  | skipped _ => exact List.Subset.refl _
  | repeated _ _ => exact List.Subset.refl _
  | imported _ _ => exact fun _ hkey => List.mem_insert_of_mem hkey

/-- Whether it is new or a repetition, the import that a statement asks for is there afterwards. -/
theorem key_mem (h : Takes edge survey statement survey') {found : List Char}
    (hfound : locator statement = .ok found) :
    (edge (String.ofList found)).key ∈ survey'.graph.edgeKeys := by
  cases h with
  | skipped hlocator => cases hlocator.symm.trans hfound
  | repeated hlocator hkey =>
    cases hlocator.symm.trans hfound
    exact hkey
  -- The key has just been put in.
  | imported hlocator _ =>
    cases hlocator.symm.trans hfound
    exact List.mem_insert_self

end Takes

/-- A statement of a file of the graph is taken into account, whatever it says. -/
theorem addStatement_takes (hstarts : ∀ v ∈ s.localStarts, v.isText = true)
    (hlog : host₀.HasLogFile) (hlogged : host₀.Logged host) {survey : Survey}
    (hg : survey.graph.Consistent) (hfile : file ∈ survey.graph.files)
    (hpath : file.relativePath ≠ "") (statement : List Char) :
    ∃ survey' host', addStatement s c file survey statement host = .ok survey' host' ∧
      host₀.Logged host' ∧ survey'.graph.Consistent ∧ survey'.graph.files = survey.graph.files ∧
      Takes (importOf s c host₀.tree host₀.folder survey.graph.files file) survey statement
        survey' := by
  unfold addStatement
  cases hlocator : ImportAtlas.locator statement with
  | error fault =>
    obtain ⟨host', hrecord, hlogged'⟩ := Host.logged_log (hlogged.hasLogFile hlog) .warning channel
      (file.relativePath ++ ": " ++
        (Failure.noLocator (String.ofList statement) fault.reason).text)
    refine ⟨{ survey with skippedLines := survey.skippedLines + 1 }, host', ?_,
      hlogged.trans hlogged', hg, rfl, .skipped hlocator⟩
    dsimp only
    rw [EStateM.bind_of_ok _ hrecord]
    rfl
  | ok found =>
    -- Both ends of the edge are files of the graph, so only its key can be refused.
    obtain ⟨edge, host₁, hmade, hchecked, hlogged₁, hedge⟩ :=
      checkedEdge_ok (c := c) hstarts hlog hlogged hg hpath hlocator
    have himporter : edge.importerId ∈ survey.graph.table.keys := by
      rw [hedge]
      exact hg.id_mem_keys hfile
    have htarget (id : Int) (hid : edge.targetId = some id) : id ∈ survey.graph.table.keys := by
      rw [hedge] at hid
      exact targetId_importOf_mem hg hid
    dsimp only
    rw [EStateM.bind_of_ok _ hmade, hchecked, EStateM.bind_of_ok _ (Act.ofExcept_ok _ _ host₁)]
    by_cases hkey : edge.key ∈ survey.graph.edgeKeys
    · -- The repetition is counted and logged, and the graph stays.
      obtain ⟨host₂, hrecord, hlogged₂⟩ := Host.logged_log (hlogged₁.hasLogFile hlog) .debug channel
        (file.relativePath ++ ": duplicate import of " ++ String.ofList found ++ " ignored")
      rw [ImportGraph.insertImport_of_mem himporter htarget hkey]
      refine ⟨{ survey with duplicateImports := survey.duplicateImports + 1 }, host₂, ?_,
        hlogged₁.trans hlogged₂, hg, rfl, .repeated hlocator (hedge ▸ hkey)⟩
      dsimp only
      rw [EStateM.bind_of_ok _ hrecord]
      rfl
    · rw [ImportGraph.insertImport_of_not_mem himporter htarget hkey]
      have hg' := hg.withEdge himporter htarget hkey
      subst hedge
      exact ⟨_, host₁, rfl, hlogged₁, hg', rfl, .imported hlocator hkey⟩

/-- What a statement adds to the locators that a file has imported. -/
def takeNote (done : List String) (statement : List Char) : List String :=
  match locator statement with
  | .error _ => done
  | .ok found => if String.ofList found ∈ done then done else done ++ [String.ofList found]

/-- Where the imports of a graph stand: those of other files, then those that `file` makes by the
locators `done`. -/
structure Underway (g : ImportGraph) (file : SourceFile) (edge : String → ImportEdge)
    (before : List ImportEdge) (done : List String) : Prop where
  consistent : g.Consistent
  file_mem : file ∈ g.files
  edges_eq : g.edges = before ++ done.map edge
  before_ne : ∀ e ∈ before, e.importerPath ≠ file.relativePath

namespace Underway

variable {before : List ImportEdge} {done : List String} {edge : String → ImportEdge}

/-- An import is a repetition exactly if `file` has imported the locator already. -/
theorem key_mem_iff (h : Underway g file edge before done)
    (hedge : ∀ locator, (edge locator).key = (file.relativePath, locator)) (locator : String) :
    (edge locator).key ∈ g.edgeKeys ↔ locator ∈ done := by
  rw [h.consistent.edgeKeys_eq, List.mem_reverse, h.edges_eq, List.map_append, List.mem_append,
    hedge, List.map_map]
  constructor
  · rintro (hbefore | hdone)
    · -- The imports of other files have other paths in their keys.
      obtain ⟨e, he, hkey⟩ := List.mem_map.1 hbefore
      exact absurd (congrArg Prod.fst hkey) (h.before_ne e he)
    · obtain ⟨locator', hlocator', hkey⟩ := List.mem_map.1 hdone
      have hkey : (edge locator').key = (file.relativePath, locator) := hkey
      rw [hedge, Prod.mk.injEq] at hkey
      exact hkey.2 ▸ hlocator'
  · exact fun hdone => .inr (List.mem_map.2 ⟨locator, hdone, hedge locator⟩)

/-- After a statement the imports of the file are those by the locators noted by then. -/
theorem takes {survey survey' : Survey} {statement : List Char}
    (h : Underway survey.graph file edge before done)
    (hedge : ∀ locator, (edge locator).key = (file.relativePath, locator))
    (htakes : Takes edge survey statement survey') (hg' : survey'.graph.Consistent) :
    Underway survey'.graph file edge before (takeNote done statement) := by
  unfold takeNote
  -- A locator is noted just when its import is new; that is what the keys tell.
  cases htakes with
  | skipped hlocator =>
    rw [hlocator]
    exact h
  | repeated hlocator hkey =>
    rw [hlocator]
    dsimp only
    rw [if_pos ((h.key_mem_iff hedge _).1 hkey)]
    exact h
  | imported hlocator hkey =>
    rw [hlocator]
    dsimp only
    rw [if_neg (mt (h.key_mem_iff hedge _).2 hkey)]
    refine ⟨hg', h.file_mem, ?_, h.before_ne⟩
    rw [List.map_append, ← List.append_assoc, ← h.edges_eq]
    rfl

end Underway

/-- A statement without a locator is skipped, one with a known locator is a repetition, and any
other one gives an import more. -/
theorem addStatement_ok (hstarts : ∀ v ∈ s.localStarts, v.isText = true)
    (hlog : host₀.HasLogFile) (hlogged : host₀.Logged host) {survey : Survey}
    {before : List ImportEdge} {done : List String} (hpath : file.relativePath ≠ "")
    (h : Underway survey.graph file
      (importOf s c host₀.tree host₀.folder survey.graph.files file) before done)
    (statement : List Char) :
    ∃ survey' host', addStatement s c file survey statement host = .ok survey' host' ∧
      host₀.Logged host' ∧ survey'.graph.files = survey.graph.files ∧
      Underway survey'.graph file
        (importOf s c host₀.tree host₀.folder survey.graph.files file) before
        (takeNote done statement) := by
  -- What the statement did to the survey is one of the three ways to take it.
  obtain ⟨survey', host', hadd, hlogged', hg', hfiles, htakes⟩ :=
    addStatement_takes (c := c) hstarts hlog hlogged h.consistent h.file_mem hpath statement
  exact ⟨survey', host', hadd, hlogged', hfiles, h.takes (key_importOf _ _ _ _ _ _) htakes hg'⟩

/-- Of locators that come again only the first one is noted. -/
theorem foldl_takeNote (statements : List (List Char)) (done : List String) :
    statements.foldl takeNote done =
      done ++ ((readLocators statements).filter fun l => decide (l ∉ done)).eraseDups := by
  induction statements generalizing done with
  | nil => simp [readLocators]
  | cons statement statements ih =>
    rw [List.foldl_cons, ih]
    cases hlocator : locator statement with
    | error fault => simp [takeNote, readLocators, hlocator, Except.toOption]
    | ok found =>
      have hread : readLocators (statement :: statements) =
          String.ofList found :: readLocators statements := by
        simp [readLocators, hlocator, Except.toOption]
      by_cases hdone : String.ofList found ∈ done
      · simp [takeNote, hlocator, hread, hdone]
      · -- The locator is new, so it stands here and is dropped from what follows.
        have hnote : takeNote done statement = done ++ [String.ofList found] := by
          simp [takeNote, hlocator, hdone]
        rw [hnote, hread, List.filter_cons_of_pos (by simpa using hdone), List.eraseDups_cons,
          List.filter_filter, List.append_assoc, List.singleton_append]
        congr 4
        funext l
        rw [Bool.eq_iff_iff]
        simp [and_comm]

/-- The statements of a file become its imports, one for each locator. -/
theorem addStatements_ok (hstarts : ∀ v ∈ s.localStarts, v.isText = true)
    (hlog : host₀.HasLogFile) (hlogged : host₀.Logged host) {survey : Survey}
    {before : List ImportEdge} {done : List String} (hpath : file.relativePath ≠ "")
    (h : Underway survey.graph file
      (importOf s c host₀.tree host₀.folder survey.graph.files file) before done)
    (statements : List (List Char)) :
    ∃ survey' host', statements.foldlM (addStatement s c file) survey host = .ok survey' host' ∧
      host₀.Logged host' ∧ survey'.graph.files = survey.graph.files ∧
      Underway survey'.graph file
        (importOf s c host₀.tree host₀.folder survey.graph.files file) before
        (statements.foldl takeNote done) := by
  induction statements generalizing survey host done with
  | nil => exact ⟨survey, host, rfl, hlogged, rfl, h⟩
  | cons statement statements ih =>
    obtain ⟨survey₁, host₁, hstep, hlogged₁, hfiles₁, h₁⟩ :=
      addStatement_ok hstarts hlog hlogged hpath h statement
    -- The files stay the same, so the later imports are made in the same way.
    rw [← hfiles₁] at h₁
    obtain ⟨survey', host', hrest, hlogged', hfiles', h'⟩ := ih hlogged₁ h₁
    rw [hfiles₁] at hfiles' h'
    refine ⟨survey', host', ?_, hlogged', hfiles', h'⟩
    rw [List.foldlM_cons, EStateM.bind_of_ok _ hstep]
    exact hrest

/-! ## All files -/

/-- The text that is read from a path: what the path leads to at first, and behind it what the log
has put there since, if the path leads to the log file. -/
def Reads (host : Host) (path text : String) : Prop :=
  ∃ bytes more, Act.readBytes path host = .ok bytes host ∧
    text = String.ofList (Text.Utf8.decodeLenient (bytes ++ more)) ∧
    (¬ host.LogsTo path → more = [])

/-- Without a log file the text is what the file holds. -/
theorem Reads.eq_of_unlogged {host : Host} {path text : String} {bytes : List UInt8}
    (h : Reads host path text) (hlog : host.logFile = none)
    (hread : Act.readBytes path host = .ok bytes host) :
    text = String.ofList (Text.Utf8.decodeLenient bytes) := by
  obtain ⟨bytes', more, hread', rfl, hmore⟩ := h
  cases hread'.symm.trans hread
  rw [hmore (Host.not_logsTo_of_unlogged hlog path), List.append_nil]

/-- Files of a graph that are still to be read: the graph has no import of theirs. -/
structure Pending (host : Host) (g : ImportGraph) (rest : List SourceFile) : Prop where
  file_mem : ∀ f ∈ rest, f ∈ g.files
  isNormal : ∀ f ∈ rest, Path.IsNormal f.absolutePath
  readable : ∀ f ∈ rest, ∃ bytes, Act.readBytes f.absolutePath host = .ok bytes host
  relativePath_ne : ∀ f ∈ rest, f.relativePath ≠ ""
  nodup_absolutePaths : (rest.map (·.absolutePath)).Nodup
  nodup_relativePaths : (rest.map (·.relativePath)).Nodup
  importer_ne : ∀ e ∈ g.edges, ∀ f ∈ rest, e.importerPath ≠ f.relativePath

/-- When a file has got its imports, the files that follow it wait for theirs as before. -/
theorem Pending.tail {rest : List SourceFile} {g' : ImportGraph} {new : List ImportEdge}
    (h : Pending host g (file :: rest)) (hfiles : g'.files = g.files)
    (hedges : g'.edges = g.edges ++ new)
    (hnew : ∀ e ∈ new, e.importerPath = file.relativePath) : Pending host g' rest := by
  have hnodup := h.nodup_relativePaths
  rw [List.map_cons, List.nodup_cons] at hnodup
  constructor
  case file_mem => exact fun f hf => hfiles ▸ h.file_mem f (.tail _ hf)
  case isNormal => exact fun f hf => h.isNormal f (.tail _ hf)
  case readable => exact fun f hf => h.readable f (.tail _ hf)
  case relativePath_ne => exact fun f hf => h.relativePath_ne f (.tail _ hf)
  case nodup_absolutePaths => exact h.nodup_absolutePaths.of_cons
  case nodup_relativePaths => exact hnodup.2
  case importer_ne =>
    intro e he f hf heq
    rw [hedges, List.mem_append] at he
    rcases he with he | he
    · exact h.importer_ne e he f (.tail _ hf) heq
    · -- The new imports are those of `file`, whose relative path no other file has.
      exact hnodup.1 (List.mem_map.2 ⟨f, hf, heq.symm.trans (hnew e he)⟩)

/-- The imports that `file` makes by its text. -/
def importsBy (s : Settings) (c : Classifier) (t : Tree Content) (here : Place)
    (files : List SourceFile) (textOf : String → String) (file : SourceFile) : List ImportEdge :=
  (locatorsOf s (textOf file.absolutePath)).map (importOf s c t here files file)

/-- The imports of a file go behind those of other files, and the files that follow it wait for
theirs as before. -/
theorem addFile_ok (hstarts : ∀ v ∈ s.localStarts, v.isText = true)
    (hlog : host₀.HasLogFile) (hlogged : host₀.Logged host) {survey : Survey}
    {rest : List SourceFile} (hg : survey.graph.Consistent)
    (h : Pending host₀ survey.graph (file :: rest)) :
    ∃ survey' host' text, addFile s c survey file host = .ok survey' host' ∧
      host₀.Logged host' ∧ Reads host₀ file.absolutePath text ∧ survey'.graph.Consistent ∧
      survey'.graph.files = survey.graph.files ∧
      survey'.graph.edges = survey.graph.edges ++ (locatorsOf s text).map
        (importOf s c host₀.tree host₀.folder survey.graph.files file) ∧
      Pending host₀ survey'.graph rest := by
  have hfile : file ∈ file :: rest := List.mem_cons_self
  -- What could be read at first can be read now, with what the log has put behind it.
  obtain ⟨bytes, hread⟩ := h.readable file hfile
  obtain ⟨more, hbytes, hmore⟩ := hlogged.readBytes_ok hlog hread
  have hstart : Underway survey.graph file
      (importOf s c host₀.tree host₀.folder survey.graph.files file) survey.graph.edges [] :=
    ⟨hg, h.file_mem file hfile, (List.append_nil _).symm, fun e he => h.importer_ne e he file hfile⟩
  rw [← (h.isNormal file hfile).text_ofText] at hbytes
  generalize htext : String.ofList (Text.Utf8.decodeLenient (bytes ++ more)) = text
  have hsource := Host.readSource_ok hbytes
  rw [htext] at hsource
  obtain ⟨survey', host', hfold, hlogged', hfiles', h'⟩ := addStatements_ok hstarts hlog hlogged
    (h.relativePath_ne file hfile) hstart (statements s.joinBlocks.isTruthy text.toList)
  -- No locator was noted before this file, so none of its own is left out.
  have hedges : survey'.graph.edges = survey.graph.edges ++ (locatorsOf s text).map
      (importOf s c host₀.tree host₀.folder survey.graph.files file) := by
    have hnone : (readLocators (statements s.joinBlocks.isTruthy text.toList)).filter
        (fun l => decide (l ∉ [])) =
        readLocators (statements s.joinBlocks.isTruthy text.toList) := by simp
    rw [h'.edges_eq, foldl_takeNote, List.nil_append, hnone]
    rfl
  refine ⟨survey', host', text, ?_, hlogged', ⟨bytes, more, hread, htext.symm, hmore⟩,
    h'.consistent, hfiles', hedges, ?_⟩
  · unfold addFile
    rw [EStateM.bind_of_ok _ hsource]
    exact hfold
  · refine h.tail hfiles' hedges fun e he => ?_
    obtain ⟨locator, -, rfl⟩ := List.mem_map.1 he
    rfl

/-- Files that can be read are all read, and each one adds the imports of its own text. -/
theorem addFiles_ok (survey : Survey) (hstarts : ∀ v ∈ s.localStarts, v.isText = true)
    (hlog : host₀.HasLogFile) (hlogged : host₀.Logged host) {rest : List SourceFile}
    (hg : survey.graph.Consistent)
    (h : Pending host₀ survey.graph rest) :
    ∃ survey' host' textOf, addFiles s c survey rest host = .ok (survey', none) host' ∧
      host₀.Logged host' ∧ (∀ f ∈ rest, Reads host₀ f.absolutePath (textOf f.absolutePath)) ∧
      survey'.graph.files = survey.graph.files ∧
      survey'.graph.edges = survey.graph.edges ++ rest.flatMap
        (importsBy s c host₀.tree host₀.folder survey.graph.files textOf) := by
  induction rest generalizing survey host with
  | nil =>
    exact ⟨survey, host, id, rfl, hlogged, nofun, rfl, (List.append_nil _).symm⟩
  | cons file rest ih =>
    obtain ⟨survey₁, host₁, text, hadd, hlogged₁, hreads, hg₁, hfiles₁, hedges₁, h₁⟩ :=
      addFile_ok hstarts hlog hlogged hg h
    obtain ⟨survey', host', textOf, hrest, hlogged', hreads', hfiles', hedges'⟩ :=
      ih survey₁ hlogged₁ hg₁ h₁
    rw [hfiles₁] at hfiles' hedges'
    -- The text of `file` is given to its path, which no other file has.
    have hne {f : SourceFile} (hf : f ∈ rest) : f.absolutePath ≠ file.absolutePath := by
      have hnodup := h.nodup_absolutePaths
      rw [List.map_cons, List.nodup_cons] at hnodup
      exact fun heq => hnodup.1 (List.mem_map.2 ⟨f, hf, heq⟩)
    refine ⟨survey', host', fun path => if path = file.absolutePath then text else textOf path,
      ?_, hlogged', ?_, hfiles', ?_⟩
    · unfold addFiles
      rw [EStateM.bind_of_ok _ (EStateM.tryCatch_of_ok _ (EStateM.map_of_ok _ hadd))]
      exact hrest
    · simp only [List.mem_cons, forall_eq_or_imp, ↓reduceIte]
      refine ⟨hreads, fun f hf => ?_⟩
      rw [if_neg (hne hf)]
      exact hreads' f hf
    · -- The rest reads its texts at other paths, so the new entry does not change them.
      have hrest : rest.flatMap (importsBy s c host₀.tree host₀.folder survey.graph.files
          fun path => if path = file.absolutePath then text else textOf path) =
          rest.flatMap (importsBy s c host₀.tree host₀.folder survey.graph.files textOf) :=
        List.flatMap_congr fun f hf => by simp only [importsBy, if_neg (hne hf)]
      rw [hedges', hedges₁, List.flatMap_cons, hrest, List.append_assoc]
      simp only [importsBy, ↓reduceIte]

/-- Before the first file is read, all of them are pending. -/
theorem pending_filesOf {paths : List String} (hnodup : paths.Nodup)
    (hplaceable : ∀ path ∈ paths, IsPlaceable s host.folder path)
    (hreadable : ∀ path ∈ paths, ∃ bytes, Act.readBytes path host = .ok bytes host)
    (hfiles : g.files = filesOf s host.folder paths) (hedges : g.edges = []) :
    Pending host g g.files := by
  -- Each file still has the path that it was made of.
  have hfile {f : SourceFile} (hf : f ∈ g.files) :
      f.absolutePath ∈ paths ∧ f.relativePath = relativePath s host.folder f.absolutePath := by
    obtain ⟨path, hpath, id, rfl⟩ := exists_eq_fileOf (hfiles ▸ hf)
    rw [absolutePath_fileOf, relativePath_fileOf]
    exact ⟨hpath, rfl⟩
  refine ⟨fun _ hf => hf, fun f hf => (hplaceable _ (hfile hf).1).isNormal,
    fun f hf => hreadable _ (hfile hf).1, ?_, ?_, ?_, ?_⟩
  · intro f hf
    rw [(hfile hf).2]
    exact (hplaceable _ (hfile hf).1).isNormal.isStraight.relativeTo_text_ne_empty _ _
  · rwa [hfiles, paths_filesOf]
  · rw [hfiles]
    exact nodup_relativePaths hnodup hplaceable
  · rw [hedges]
    exact nofun

/-- Where every file brings its own imports, they are what goes out from it. -/
theorem importsOf_eq {importsBy : SourceFile → List ImportEdge}
    (hids : (g.files.map (·.id)).Nodup) (hedges : g.edges = g.files.flatMap importsBy)
    (hown : ∀ f, ∀ e ∈ importsBy f, e.importerId = f.id) {file : SourceFile}
    (hfile : file ∈ g.files) : g.importsOf file.id = importsBy file := by
  -- Of the files before and after it nothing is kept, and of its own imports everything.
  obtain ⟨before, after, hsplit⟩ := List.append_of_mem hfile
  rw [hsplit, List.map_append, List.map_cons, List.nodup_middle, List.nodup_cons,
    List.mem_append] at hids
  have hother {l : List SourceFile} (hl : file.id ∉ l.map (·.id)) :
      l.flatMap (fun f => (importsBy f).filter fun e => e.importerId == file.id) = [] := by
    rw [List.flatMap_eq_nil_iff]
    intro f hf
    rw [List.filter_eq_nil_iff]
    intro e he heq
    rw [hown f e he] at heq
    exact hl (List.mem_map.2 ⟨f, hf, eq_of_beq heq⟩)
  have hself : (importsBy file).filter (fun e => e.importerId == file.id) = importsBy file := by
    rw [List.filter_eq_self]
    intro e he
    rw [hown file e he, beq_self_eq_true]
  rw [ImportGraph.importsOf, hedges, hsplit, List.filter_flatMap, List.flatMap_append,
    List.flatMap_cons, hother fun h => hids.1 (.inl h), hother fun h => hids.1 (.inr h), hself,
    List.nil_append, List.append_nil]

/-- Once all paths are placed, a survey is what is made of their files; that it has come to its end
is only logged. -/
theorem ofPaths_of_addFiles {paths : List String} {survey : Survey} {stopped : Option Error}
    {host₁ : Host} (hplaced : paths.foldlM (addPath s) .empty host = .ok g host)
    (hread : addFiles s c { graph := g } g.files host = .ok (survey, stopped) host₁)
    (hlog : host₁.HasLogFile) : ∃ host', ofPaths s c paths host = .ok (survey, stopped) host' := by
  unfold ofPaths
  rw [EStateM.bind_of_ok _ (EStateM.tryCatch_of_ok _ (EStateM.map_of_ok _ hplaced))]
  dsimp only
  rw [EStateM.bind_of_ok _ hread]
  cases stopped with
  | some e => exact ⟨host₁, rfl⟩
  | none =>
    -- What is left is to note in the log what has been built.
    obtain ⟨host', hrecord, -⟩ := Host.logged_log hlog .info channel
      ("Graph built: " ++ toString survey.graph.files.length ++ " files, "
        ++ toString survey.graph.edges.length ++ " imports ("
        ++ toString survey.skippedLines ++ " lines skipped, "
        ++ toString survey.duplicateImports ++ " duplicates)")
    refine ⟨host', ?_⟩
    simp only [Option.isNone_none, ↓reduceIte]
    rw [EStateM.bind_of_ok _ hrecord]
    rfl

/-- All paths are placed, then all files are read, and what is logged at the end changes nothing of
the survey. -/
theorem ofPaths_ok {paths : List String} (hstarts : ∀ v ∈ s.localStarts, v.isText = true)
    (hlog : host.HasLogFile) (hnodup : paths.Nodup)
    (hplaceable : ∀ path ∈ paths, IsPlaceable s host.folder path)
    (hreadable : ∀ path ∈ paths, ∃ bytes, Act.readBytes path host = .ok bytes host) :
    ∃ survey host' textOf, ofPaths s c paths host = .ok (survey, none) host' ∧
      (∀ path ∈ paths, Reads host path (textOf path)) ∧
      survey.graph.files = filesOf s host.folder paths ∧
      (survey.graph.files.map (·.id)).Nodup ∧
      survey.graph.edges = survey.graph.files.flatMap
        (importsBy s c host.tree host.folder survey.graph.files textOf) := by
  obtain ⟨g, hplaced, hg, hfiles, hedges⟩ := addPaths_ok [] paths
    ImportGraph.consistent_empty rfl hnodup fun path hpath => (hplaceable path hpath).isAddable
  rw [List.nil_append] at hfiles
  obtain ⟨survey, host₁, textOf, hread, hlogged, htexts, hfiles', hedges'⟩ :=
    addFiles_ok (c := c) { graph := g } hstarts hlog (.refl host) hg
      (pending_filesOf hnodup hplaceable hreadable hfiles hedges)
  obtain ⟨host', hsurvey⟩ := ofPaths_of_addFiles hplaced hread (hlogged.hasLogFile hlog)
  refine ⟨survey, host', textOf, hsurvey, ?_, hfiles'.trans hfiles, hfiles' ▸ hg.nodup_ids, ?_⟩
  · -- Each path is the path of one of the files.
    intro path hpath
    rw [← paths_filesOf (s := s) host.folder paths, ← hfiles] at hpath
    obtain ⟨f, hf, rfl⟩ := List.mem_map.1 hpath
    exact htexts f hf
  · rw [hfiles', hedges', hedges]
    rfl

end Survey

/-- A survey that comes to its end gives its graph. -/
theorem buildGraph_of_ofPaths {s : Settings} {c : Classifier} {host host' : Host}
    {paths : List String} {survey : Survey} (hclassifier : s.classifier host = .ok c host)
    (hsurvey : Survey.ofPaths s c paths host = .ok (survey, none) host') :
    buildGraph s paths host = .ok survey.graph host' := by
  unfold buildGraph
  rw [EStateM.bind_of_ok _ hclassifier, EStateM.bind_of_ok _ hsurvey]
  rfl

/-- Under settings with texts as names, normal paths of readable files are built into a graph. Its
files are those paths, numbered from 1, and its imports are, file by file, those that the text of
the file makes: no file has a part in the imports of another one, other than as their target. -/
theorem buildGraph_spec {s : Settings} {host : Host} {paths : List String}
    (hlibraries : ∀ v ∈ s.libraries, v.isText = true)
    (hstarts : ∀ v ∈ s.localStarts, v.isText = true) (hlog : host.HasLogFile)
    (hnodup : paths.Nodup) (hplaceable : ∀ path ∈ paths, Survey.IsPlaceable s host.folder path)
    (hreadable : ∀ path ∈ paths, ∃ bytes, Act.readBytes path host = .ok bytes host) :
    ∃ c g host' textOf, s.classifier host = .ok c host ∧ buildGraph s paths host = .ok g host' ∧
      (∀ path ∈ paths, Survey.Reads host path (textOf path)) ∧
      g.files = Survey.filesOf s host.folder paths ∧
      g.edges = g.files.flatMap (Survey.importsBy s c host.tree host.folder g.files textOf) ∧
      ∀ f ∈ g.files, g.importsOf f.id =
        Survey.importsBy s c host.tree host.folder g.files textOf f := by
  obtain ⟨c, hclassifier⟩ := Settings.classifier_ok hlibraries host
  obtain ⟨survey, host', textOf, hsurvey, htexts, hfiles, hids, hedges⟩ :=
    Survey.ofPaths_ok (c := c) hstarts hlog hnodup hplaceable hreadable
  refine ⟨c, survey.graph, host', textOf, hclassifier, buildGraph_of_ofPaths hclassifier hsurvey,
    htexts, hfiles, hedges, fun f hf => ?_⟩
  refine Survey.importsOf_eq hids hedges ?_ hf
  intro f e he
  obtain ⟨locator, -, rfl⟩ := List.mem_map.1 he
  rfl

/-- Two files of a folder that import each other. -/
def mutualTree : Tree Content where
  entries := [
    (["p"], .folder),
    (["p", "a.js"], .file (.bytes (Text.Utf8.encode "import b from './b'".toList))),
    (["p", "b.js"], .file (.bytes (Text.Utf8.encode "import a from './a'".toList)))]

/-- A host with these files and without a log file. -/
def mutualHost : Host where
  tree := mutualTree
  folder := ["p"]
  environment := []
  replies := []
  stamp := ""

/-- Settings for the folder, without libraries. -/
def mutualSettings : Settings where
  projectRoot := "/p"
  scanDirectories := ["/p"]
  libraries := []
  localStarts := [.text "./"]

/-- The two files are found by their paths. -/
theorem lookup_mutualTree {name : String} (hname : name = "a.js" ∨ name = "b.js")
    {bytes : List UInt8} (hget : mutualTree.get? ["p", name] = some (.file (.bytes bytes))) :
    mutualTree.lookup ["p"] ("/p/" ++ name) = .ok (["p", name], .file (.bytes bytes)) := by
  have hpath : "/p/" ++ name ≠ "" := by
    rcases hname with rfl | rfl <;> decide
  -- The path and its steps are computed for both names; the walk is then the same.
  have hsteps : stepsOf ("/p/" ++ name) = ["p", name] ∧ startOf ["p"] ("/p/" ++ name) = [] ∧
      name ≠ "" ∧ name ≠ "." ∧ name ≠ ".." := by
    rcases hname with rfl | rfl <;> decide
  have hshort : isLongPath ("/p/" ++ name) = false ∧ isLongName "p" = false ∧
      isLongName name = false := by
    rcases hname with rfl | rfl <;> decide
  have hroot : mutualTree.isFolder [] = true := rfl
  have hfolder : mutualTree.isFolder ["p"] = true := rfl
  have hget' : mutualTree.get? ["p"] = some .folder := rfl
  simp [Tree.lookup, Tree.locate, Tree.walk, hpath, hsteps, hshort, hroot, hfolder, hget', hget]

/-- They can be read on any host with this tree. -/
theorem readBytes_mutualTree {host : Host} (htree : host.tree = mutualTree)
    (hfolder : host.folder = ["p"]) {name : String} (hname : name = "a.js" ∨ name = "b.js")
    {bytes : List UInt8} (hget : mutualTree.get? ["p", name] = some (.file (.bytes bytes))) :
    Act.readBytes ("/p/" ++ name) host = .ok bytes host := by
  have hnul : Act.hasNul ("/p/" ++ name) = false := by
    rcases hname with rfl | rfl <;> decide
  refine Host.readBytes_eq_ok_iff.2 ⟨hnul, ["p", name], .bytes bytes, ?_, rfl⟩
  rw [htree, hfolder, lookup_mutualTree hname hget]

theorem readBytes_mutualHost {name : String} (hname : name = "a.js" ∨ name = "b.js")
    {bytes : List UInt8} (hget : mutualTree.get? ["p", name] = some (.file (.bytes bytes))) :
    Act.readBytes ("/p/" ++ name) mutualHost = .ok bytes mutualHost :=
  readBytes_mutualTree rfl rfl hname hget

/-- The import of the first file leads to the second one, which comes later. -/
theorem buildGraph_forward :
    ∃ g host', buildGraph mutualSettings ["/p/a.js", "/p/b.js"] mutualHost = .ok g host' ∧
      g.importsOf 1 = [⟨1, "a.js", "./b", some .localFile, some 2, some "/p/b.js"⟩] := by
  have hread : Act.readBytes "/p/a.js" mutualHost = .ok _ mutualHost :=
    readBytes_mutualHost (.inl rfl) rfl
  have hread' : Act.readBytes "/p/b.js" mutualHost = .ok _ mutualHost :=
    readBytes_mutualHost (.inr rfl) rfl
  have hplaceable : ∀ path ∈ ["/p/a.js", "/p/b.js"],
      Survey.IsPlaceable mutualSettings mutualHost.folder path := by
    simp only [List.mem_cons, List.not_mem_nil, or_false, forall_eq_or_imp, forall_eq]
    exact ⟨⟨⟨["p", "a.js"], by decide, by decide⟩, by decide⟩,
      ⟨⟨["p", "b.js"], by decide, by decide⟩, by decide⟩⟩
  have hreadable : ∀ path ∈ ["/p/a.js", "/p/b.js"],
      ∃ bytes, Act.readBytes path mutualHost = .ok bytes mutualHost := by
    simp only [List.mem_cons, List.not_mem_nil, or_false, forall_eq_or_imp, forall_eq]
    exact ⟨⟨_, hread⟩, ⟨_, hread'⟩⟩
  have hlog : mutualHost.HasLogFile := nofun
  obtain ⟨c, g, host', textOf, hclassifier, hbuild, htexts, hfiles, -, himports⟩ :=
    buildGraph_spec (s := mutualSettings) nofun (by decide) hlog (by decide) hplaceable hreadable
  cases hclassifier
  refine ⟨g, host', hbuild, ?_⟩
  -- Without a log file the text is what the file holds.
  have hlocators : Survey.locatorsOf mutualSettings (textOf "/p/a.js") = ["./b"] := by
    obtain ⟨bytes, more, hbytes, htext, hmore⟩ := htexts "/p/a.js" (by decide)
    cases hbytes.symm.trans hread
    cases hmore nofun
    rw [htext]
    decide +kernel
  have htarget : (candidatePaths "./b" "/p/a.js" mutualSettings.baseDirectory
      mutualSettings.extensions).find? (mutualHost.tree.leadsToFile mutualHost.folder) =
      some "/p/b.js" := by
    have hcandidates : candidatePaths "./b" "/p/a.js" mutualSettings.baseDirectory
        mutualSettings.extensions = ["/p/b.js", "/p/b.jsx", "/p/b.ts", "/p/b.tsx"] := by
      decide
    have hlookup : mutualHost.tree.lookup mutualHost.folder "/p/b.js" = _ :=
      lookup_mutualTree (.inr rfl) rfl
    rw [hcandidates, List.find?_cons_of_pos (by rw [Tree.leadsToFile, hlookup])]
  -- The file of the target stands behind the importer in the list.
  have hfirst := himports (Survey.fileOf mutualSettings mutualHost.folder "/p/a.js" 1)
    (hfiles ▸ List.mem_cons_self)
  rw [Survey.importsBy, Survey.absolutePath_fileOf, hlocators, List.map_singleton, Survey.importOf,
    Survey.absolutePath_fileOf, htarget, hfiles] at hfirst
  exact hfirst.trans (by decide)

end ImportAtlas
