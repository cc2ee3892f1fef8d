import ImportAtlas.Proofs.Import.Relative
import ImportAtlas.Proofs.Inventory
import ImportAtlas.Proofs.Setting.Root
import ImportAtlas.Proofs.Survey
import ImportAtlas.Proofs.Tree.Plain

/-!
# Imports that name a file by its relative path

The inventory, the settings and the candidates of a locator all spell a path in one way. So a file
of the inventory is reached by an import that names it by its path from the importing file, and by a
locator that is its path from the base directory.

Two paths that differ only in their leading slashes have the same names, so they look the same from
everywhere. Where the files and the base directory begin with equally many slashes, this does no
harm.

## Key results

- `Survey.exists_import`: an import that a text makes is in the graph
- `buildGraph_relative`: where imports by relative paths lead
-/

namespace ImportAtlas

open EStateM

/-- Of the local starts, all are known to a classifier that goes through all of them. -/
theorem Value.mem_leadingTexts {vs : List Value} {t : String} (hmem : .text t ∈ vs)
    (hother : (leadingTexts vs).2 = Option.none) : t ∈ (leadingTexts vs).1 := by
  induction vs with
  | nil => cases hmem
  | cons v vs ih =>
    -- A value that is no text would end the leading texts with itself left over.
    cases v with
    | text u =>
      rcases List.mem_cons.1 hmem with heq | hmem
      · cases heq
        exact List.mem_cons_self
      · exact List.mem_cons_of_mem _ (ih hmem hother)
    | _ => cases hother

/-- A locator that begins with a dot as it should is local, where it can be classified at all. -/
theorem Settings.Classifies.isLocal {s : Settings} {c : Classifier} {locator : String}
    (h : s.Classifies c locator) (hstarts : c.localStarts = (Value.leadingTexts s.localStarts).1)
    (hdot : .text "./" ∈ s.localStarts) (hup : .text "../" ∈ s.localStarts)
    (hdotted : IsDotted locator) : c.isLocal locator = true := by
  rcases h with hother | hlocal
  · rw [Classifier.isLocal, List.any_eq_true, hstarts]
    -- Both ways to start are in the list, in front of any value that is no text.
    rcases hdotted with hbegins | hbegins
    · exact ⟨_, Value.mem_leadingTexts hdot hother, hbegins⟩
    · exact ⟨_, Value.mem_leadingTexts hup hother, hbegins⟩
  · exact hlocal

/-- The graph has an import by `locator` that leads from the file at `importer` to the one at
`target`. -/
def ImportGraph.Leads (g : ImportGraph) (importer locator target : String) : Prop :=
  ∃ f ∈ g.files, f.absolutePath = importer ∧ ∃ f' ∈ g.files, f'.absolutePath = target ∧
    ∃ e ∈ g.edges, e.importerId = f.id ∧ e.locator = locator ∧ e.kind = some .localFile ∧
      e.targetId = some f'.id ∧ e.targetPath = some target

namespace Survey

variable {s : Settings} {c : Classifier} {host host' : Host} {survey : Survey}
  {paths : List String} {textOf : String → String}

/-- Each path has its file. -/
theorem exists_file_of_mem (s : Settings) (here : Place) {path : String} (h : path ∈ paths) :
    ∃ f ∈ filesOf s here paths, f.absolutePath = path := by
  rw [← paths_filesOf (s := s) here paths] at h
  obtain ⟨f, hf, hpath⟩ := List.mem_map.1 h
  exact ⟨f, hf, hpath⟩

/-- A straight path with names of its own has a relative path of its own. -/
theorem eq_of_relativePath_eq {here : Place} {f f' : SourceFile}
    (hstraight : ∀ path ∈ paths, (Path.ofText path).IsStraight)
    (hunique : ∀ path ∈ paths, (Path.ofText path).names = (Path.ofText f.absolutePath).names →
      path = f.absolutePath)
    (hf : f ∈ filesOf s here paths) (hf' : f' ∈ filesOf s here paths)
    (heq : f'.relativePath = f.relativePath) : f'.absolutePath = f.absolutePath := by
  obtain ⟨path, hpath, id, rfl⟩ := exists_eq_fileOf hf
  obtain ⟨path', hpath', id', rfl⟩ := exists_eq_fileOf hf'
  simp only [relativePath_fileOf, absolutePath_fileOf] at heq hunique ⊢
  have h := hstraight path hpath
  have h' := hstraight path' hpath'
  -- Relative paths are well formed, so they are the same if their texts are.
  have hrelative := congrArg Path.ofText heq
  rw [relativePath, relativePath, Path.ofText_text (h'.wellFormed_relativeTo _ _),
    Path.ofText_text (h.wellFormed_relativeTo _ _), h'.relativeTo_eq, h.relativeTo_eq,
    Path.mk.injEq] at hrelative
  apply hunique path' hpath'
  exact Path.stepsBetween_injective (fun hup => (h'.names _ hup).2 rfl)
    (fun hup => (h.names _ hup).2 rfl) hrelative.2

/-- What a text imports is imported in the graph by the file that the text is of, if no other file
has its relative path. -/
theorem exists_import (h : Surveyed s c host (filesOf s host.folder paths)
      (placedOf s textOf (filesOf s host.folder paths)) survey host') {f : SourceFile}
    (hf : f ∈ filesOf s host.folder paths)
    (hunique : ∀ f' ∈ filesOf s host.folder paths, f'.relativePath = f.relativePath → f' = f)
    {locator : String} (hlocator : locator ∈ locatorsOf s (textOf f.absolutePath)) :
    importOf s c host.tree host.folder (filesOf s host.folder paths) f locator ∈
      survey.graph.edges ∧ s.Classifies c locator := by
  -- The locator stands in a statement of the file.
  obtain ⟨statement, hstatement, hread⟩ := List.mem_filterMap.1 (List.mem_eraseDups.1 hlocator)
  obtain ⟨found, hfound, rfl⟩ : ∃ found, ImportAtlas.locator statement = .ok found ∧
      String.ofList found = locator := by
    cases hfound : ImportAtlas.locator statement with
    | error fault => simp [hfound, Except.toOption] at hread
    | ok found => exact ⟨found, rfl, by simpa [hfound, Except.toOption] using hread⟩
  have hplaced : (f, statement) ∈ placedOf s textOf (filesOf s host.folder paths) :=
    List.mem_flatMap.2 ⟨f, hf, List.mem_map.2 ⟨statement, hstatement, rfl⟩⟩
  refine ⟨?_, h.classifies _ hplaced found hfound⟩
  -- Its key is in the graph, and it is the key of no other import.
  have hkey := h.key_mem _ hplaced found hfound
  rw [h.consistent.edgeKeys_eq, List.mem_reverse] at hkey
  obtain ⟨e, he, hkey⟩ := List.mem_map.1 hkey
  obtain ⟨p, hp, found', -, rfl⟩ := h.exists_placed e he
  obtain ⟨f', hf', hp⟩ := List.mem_flatMap.1 hp
  obtain ⟨statement', -, rfl⟩ := List.mem_map.1 hp
  rw [key_importOf, Prod.mk.injEq] at hkey
  obtain rfl := hunique f' hf' hkey.1
  rw [hkey.2] at he
  exact he

/-- An import whose first candidate that is there is a file of the graph leads to that file. -/
theorem leads_of_candidate (h : Surveyed s c host (filesOf s host.folder paths)
      (placedOf s textOf (filesOf s host.folder paths)) survey host') {f f' : SourceFile}
    (hf : f ∈ filesOf s host.folder paths) (hf' : f' ∈ filesOf s host.folder paths)
    {locator : String} (hlocal : c.isLocal locator = true)
    (hmem : importOf s c host.tree host.folder (filesOf s host.folder paths) f locator ∈
      survey.graph.edges)
    (htarget : (candidatePaths locator f.absolutePath s.baseDirectory s.extensions).find?
      (host.tree.leadsToFile host.folder) = some f'.absolutePath) :
    survey.graph.Leads f.absolutePath locator f'.absolutePath := by
  have hkind : c.classify locator = some .localFile :=
    Classifier.classify_eq_localFile_iff.2 hlocal
  -- The importing side knows files by their paths; the graph has this one.
  have hfind : (filesOf s host.folder paths).find?
      (fun f₁ => f₁.absolutePath == f'.absolutePath) = some f' := by
    rw [← h.files_eq, ← h.consistent.fileAt?_eq_find?, h.consistent.fileAt?_eq_some_iff,
      h.files_eq]
    exact ⟨hf', rfl⟩
  rw [← h.files_eq] at hf hf'
  refine ⟨f, hf, rfl, f', hf', rfl, _, hmem, rfl, rfl, hkind, ?_, ?_⟩
  · simp only [importOf, hkind, ↓reduceIte, htarget, Option.bind_some, hfind, Option.map_some]
  · simp only [importOf, hkind, ↓reduceIte, htarget]

end Survey

/-- The relative path from the base directory stands for the file that it leads to. -/
theorem resolveLocator_relativeText {host : Host} (hlog : host.HasLogFile)
    {baseDirectory target locator : String} {extensions : List String} (importer : String)
    (htarget : (Path.ofText target).IsStraight) (htext : (Path.ofText target).text = target)
    (hfound : host.tree.leadsToFile host.folder target = true)
    (hanchor : (Path.ofText baseDirectory).anchor = (Path.ofText target).anchor)
    (hhead : (relativeText (Path.ofText baseDirectory) target).toList.head? ≠ some '.')
    (hshort : ShortFor extensions (fun spelled => host.tree.leadsToFile host.folder
        (Path.ofText baseDirectory / Path.ofText spelled : Path).collapse.text = false)
      locator (relativeText (Path.ofText baseDirectory) target)) :
    ∃ later, resolveLocator locator importer baseDirectory extensions host =
      .ok (some target) later := by
  -- The locator begins as the relative path does.
  have hhead' : locator.toList.head? ≠ some '.' := by
    intro hdot
    apply hhead
    generalize relativeText (Path.ofText baseDirectory) target = spelled at hshort
    cases hshort with
    | itself _ => exact hdot
    | extended _ _ _ =>
      obtain ⟨rest, hrest⟩ := List.head?_eq_some_iff.1 hdot
      simp [String.toList_append, hrest]
  have hbase : locatorBase locator importer baseDirectory = Path.ofText baseDirectory := by
    rw [locatorBase, if_neg hhead']
  -- The first candidate that is there is the target itself.
  have hfirst := find?_candidatePaths hbase hshort
    (collapse_relativeText (Path.wellFormed_ofText _) htarget htext hanchor) hfound
  obtain ⟨later, hresolve, -⟩ :=
    Survey.resolveLocator_ok hlog locator importer baseDirectory extensions
  exact ⟨later, by rw [hresolve, hfirst]⟩

/-- Under settings in which `./` and `../` are local starts, let the files that walking has found be
built into a graph. If a file imports another one by its relative path, with or without the
extension, the import leads to that file. And the relative path from the base directory, unless it
begins with a dot, stands for the file that it leads to. -/
theorem buildGraph_relative {s : Settings} {host host₁ host' : Host} {paths : List String}
    {g : ImportGraph} (hhost : host.IsProper) (hwalk : s.trackedOnly.isTruthy = false)
    (hdot : .text "./" ∈ s.localStarts) (hup : .text "../" ∈ s.localStarts)
    (hlist : Inventory.list s.inventory host = .ok paths host₁)
    (hbuild : buildGraph s paths host₁ = .ok g host') :
    ∃ textOf : String → String, (∀ path ∈ paths, Survey.Reads host₁ path (textOf path)) ∧
      (∀ a ∈ paths, ∀ b ∈ paths, (Path.ofText a).anchor = (Path.ofText b).anchor →
        (∀ path ∈ paths, (Path.ofText path).names = (Path.ofText a).names → path = a) →
        ∀ locator ∈ Survey.locatorsOf s (textOf a),
          locator = relativeLocator a b ∨ IsDotted locator →
          ShortFor s.extensions (fun spelled => host₁.tree.leadsToFile host₁.folder
              (Path.directoryOf a / Path.ofText spelled : Path).collapse.text = false)
            locator (relativeLocator a b) →
          g.Leads a locator b) ∧
      ∀ b ∈ paths, (Path.ofText s.baseDirectory).anchor = (Path.ofText b).anchor →
        (relativeText (Path.ofText s.baseDirectory) b).toList.head? ≠ some '.' →
        ∀ locator importer,
          ShortFor s.extensions (fun spelled => host₁.tree.leadsToFile host₁.folder
              (Path.ofText s.baseDirectory / Path.ofText spelled : Path).collapse.text = false)
            locator (relativeText (Path.ofText s.baseDirectory) b) →
          ∃ later, resolveLocator locator importer s.baseDirectory s.extensions host₁ =
            .ok (some b) later := by
  have hreplies : s.inventory.trackedOnly = true → ∀ reply ∈ host.replies, reply.NamesBelow := by
    intro htracked
    rw [Settings.inventory, hwalk] at htracked
    cases htracked
  obtain ⟨hlogged, -, hlisted⟩ := Inventory.gives_list hhost hreplies paths host₁ hlist
  have hlog := hlogged.hasLogFile hhost.hasLogFile
  have hstraight : ∀ path ∈ paths, (Path.ofText path).IsStraight ∧
      (Path.ofText path).text = path := by
    intro path hpath
    obtain ⟨p, hp, rfl⟩ := (hlisted path hpath).exists_straight
    rw [hp.ofText_text]
    exact ⟨hp, rfl⟩
  have hfound : ∀ path ∈ paths, host₁.tree.leadsToFile host₁.folder path = true := by
    intro path hpath
    rw [hlogged.leadsToFile_eq hhost.hasLogFile]
    exact (hlisted path hpath).leadsToFile
  obtain ⟨c, survey, textOf, rfl, hstarts, hreads, hsurveyed⟩ :=
    Survey.gives_buildGraph hlog paths g host' hbuild
  refine ⟨textOf, fun path hpath => ?_, ?_, ?_⟩
  · have hread := hreads path hpath
    rwa [(hstraight path hpath).2] at hread
  · intro a ha b hb hanchor hunique locator hlocator hspelled hshort
    have hdotted : IsDotted locator :=
      hspelled.elim (fun heq => heq ▸ isDotted_relativeLocator a b) id
    obtain ⟨f, hf, rfl⟩ := Survey.exists_file_of_mem s host₁.folder ha
    obtain ⟨f', hf', rfl⟩ := Survey.exists_file_of_mem s host₁.folder hb
    have hfiles := hsurveyed.files_eq
    have hpaths : ((Survey.filesOf s host₁.folder paths).map (·.absolutePath)).Nodup := by
      rw [← hfiles]
      exact hsurveyed.consistent.nodup_paths
    -- No other file has the relative path of the importer.
    have hown : ∀ f₁ ∈ Survey.filesOf s host₁.folder paths,
        f₁.relativePath = f.relativePath → f₁ = f := by
      intro f₁ hf₁ heq
      have hpath := Survey.eq_of_relativePath_eq (fun path hpath => (hstraight path hpath).1)
        hunique hf hf₁ heq
      exact List.inj_on_of_nodup_map hpaths hf₁ hf hpath
    obtain ⟨hedge, hclass⟩ := Survey.exists_import hsurveyed hf hown hlocator
    have hlocal := hclass.isLocal hstarts hdot hup hdotted
    -- The first candidate that is there is the file itself.
    have hbase : locatorBase locator f.absolutePath s.baseDirectory =
        Path.directoryOf f.absolutePath := by
      rw [locatorBase, if_pos hdotted.head?_eq]
    have htarget := find?_candidatePaths hbase hshort
      (collapse_relativeLocator (hstraight _ hb).1 (hstraight _ hb).2 hanchor) (hfound _ hb)
    exact Survey.leads_of_candidate hsurveyed hf hf' hlocal hedge htarget
  · intro b hb hanchor hhead locator importer hshort
    exact resolveLocator_relativeText hlog importer (hstraight b hb).1 (hstraight b hb).2
      (hfound b hb) hanchor hhead hshort

/-! ## Where relative paths lead astray -/

/-- A file that imports the one above it, and then the directory it stands in. Beside it stands a
link to itself. -/
def nestedTree : Tree Content where
  entries := [
    (["p"], .folder),
    (["p", "b.js"], .file (.bytes [])),
    (["p", "loop"], .link "loop"),
    (["p", "sub"], .folder),
    (["p", "sub", "a.js"],
      .file (.bytes (Text.Utf8.encode "import b from '../b.js'\nimport '.'".toList)))]

/-- A host with these files and without a log file. -/
def nestedHost : Host where
  tree := nestedTree
  folder := ["p"]
  environment := []
  replies := []
  stamp := ""

/-- What is set: one of the extensions goes back over a slash, and the directory that is scanned is
spelled behind the link. -/
def slashedEntries : Dictionary String Value :=
  [("scan_dirs", .list [.text "loop///p"]), ("extensions", .list [.text "/b.js", .text "js"]),
    ("known_libraries", .list []), ("tracked_only", .bool false), ("exclude_patterns", .list [])]

/-- The settings that are made of it. The link leads nowhere, so what stands behind it is kept, with
two slashes in front. -/
def slashedSettings : Settings where
  projectRoot := "/p"
  scanDirectories := ["//p"]
  extensions := ["/b.js", "js"]
  libraries := []
  trackedOnly := .bool false
  excludePatterns := []

/-- The paths of the two files. -/
def nestedPaths : List String :=
  ["/p/b.js", "/p/sub/a.js"]

/-- The folders of the example are all there. -/
private theorem isClosed_nestedTree : nestedTree.IsClosed :=
  Tree.isClosed_of_entries (by decide)

private theorem isProper_nestedHost : nestedHost.IsProper where
  folder := by
    unfold Place.IsProper
    decide
  tree := by
    rw [Tree.isProper_iff]
    unfold Place.IsProper
    decide
  hasLogFile := nofun

/-- Its entries are found by their paths. -/
private theorem lookup_nestedTree {place : Place} {entry : Entry Content}
    (hplace : place ∈ [["p"], ["p", "b.js"], ["p", "sub", "a.js"]])
    (hget : nestedTree.get? place = some entry) (hlink : ∀ target, entry ≠ .link target) :
    nestedTree.lookup ["p"] (Path.ofPlace place).text = .ok (place, entry) := by
  have hnames : ∀ place ∈ [["p"], ["p", "b.js"], ["p", "sub", "a.js"]], ∀ n ∈ place,
      (Path.isName n = true ∧ n ≠ "..") ∧ isLongName n = false := by
    decide
  have hpath : ∀ place ∈ [["p"], ["p", "b.js"], ["p", "sub", "a.js"]],
      isLongPath (Path.ofPlace place).text = false := by
    decide
  exact isClosed_nestedTree.lookup_eq (fun n hn => (hnames place hplace n hn).1)
    ⟨hpath place hplace, fun n hn => (hnames place hplace n hn).2⟩ hget hlink _

/-- Two slashes in front make no difference to the folder. -/
private theorem canonical?_nestedHost {path : String} (hpath : path = "/p" ∨ path = "//p") :
    nestedHost.tree.canonical? nestedHost.folder path = some (.ofPlace ["p"]) := by
  obtain ⟨anchor, hanchor, rfl⟩ : ∃ anchor, (Path.mk anchor ["p"]).isAbsolute = true ∧
      path = (Path.mk anchor ["p"]).text := by
    rcases hpath with rfl | rfl
    · exact ⟨.root, by decide, by decide⟩
    · exact ⟨.doubleRoot, by decide, by decide⟩
  have hname : ∀ n ∈ ["p"], (Path.isName n = true ∧ n ≠ "..") ∧
      n.toList.contains '\x00' = false := by
    decide
  -- The one name of the path is a folder, so no link is followed.
  have hlink : ∀ front rest target, ["p"] = front ++ rest →
      nestedTree.get? front ≠ some (.link target) := by
    intro front rest target hsplit
    rcases front with _ | ⟨n, _ | ⟨m, front⟩⟩
    · exact nofun
    · obtain ⟨rfl, rfl⟩ : "p" = n ∧ [] = rest := by simpa using hsplit
      exact nofun
    · simp at hsplit
  exact Tree.canonical?_eq ⟨hanchor, fun n hn => (hname n hn).1⟩ (fun n hn => (hname n hn).2)
    (fun front rest target hsplit hget => hlink front rest target hsplit
      (Tree.get?_of_inSight hget)) ["p"]

/-- What stands behind a link to itself is kept as it is spelled. -/
private theorem canonical_loop_nestedHost :
    Act.canonical "/p/loop///p" nestedHost = .ok ⟨.doubleRoot, ["p"]⟩ nestedHost := by
  have hsegments : segmentsOf "/p/loop///p" = ["", "p", "loop", "", "", "p"] ∧
      segmentsOf "loop" = ["loop"] := by decide
  have hstart : startOf ["p"] "/p/loop///p" = [] ∧ startOf ["p"] "loop" = ["p"] := by decide
  have hnone : nestedTree.linkAt? (.root : Origin 1) ([] ++ ["p"]) = none := rfl
  have hlink : nestedTree.linkAt? (.root : Origin 1) (["p"] ++ ["loop"]) = some "loop" := rfl
  have hproper : Place.IsProper ["loop"] := by
    unfold Place.IsProper
    decide
  -- What follows the circle is joined to it, and so begins with two slashes.
  have hresumed : (((Path.ofPlace (["p"] ++ ["loop"])).resume []).resume ["", "", "p"]).collapse =
      ⟨.doubleRoot, ["p"]⟩ := by decide
  -- The target of the link is the link itself, which is being followed by then.
  have hcircular : nestedTree.resolve [((.root : Origin 1), ["p"] ++ ["loop"])]
      (Origin.root.ofTarget "loop") (startOf ["p"] "loop") (segmentsOf "loop") =
      .circular ((Path.ofPlace (["p"] ++ ["loop"])).resume []) := by
    have hsame : (.root : Origin 1).ofTarget "loop" = .root := if_neg (by decide)
    rw [hstart.2, hsegments.2, hsame]
    exact Tree.resolve_of_active hproper (by decide) hlink (by simp)
  have hresolve : nestedTree.resolve [] (.root : Origin 1) [] ["", "p", "loop", "", "", "p"] =
      .circular (((Path.ofPlace (["p"] ++ ["loop"])).resume []).resume ["", "", "p"]) := by
    have hgo : nestedTree.resolve [] (.root : Origin 1) ["p"] ["loop", "", "", "p"] = _ :=
      Tree.resolve_of_link_circular hproper (by decide) hlink rfl hcircular
    rw [← hgo, Tree.resolve, if_pos (.inl rfl),
      Tree.resolve_of_name (by decide) (by decide) (by decide) hnone]
    rfl
  have hcanonical : nestedHost.tree.canonical? nestedHost.folder "/p/loop///p" =
      some ⟨.doubleRoot, ["p"]⟩ := by
    show nestedTree.canonical? ["p"] "/p/loop///p" = _
    have horigin : Tree.originOf ["p"] "/p/loop///p" = .root := by decide
    rw [Tree.canonical?, hsegments.1, hstart.1, horigin, hresolve]
    exact congrArg some hresumed
  unfold Act.canonical
  rw [bind_get, hcanonical]
  rfl

/-- The settings of the example are read. -/
private theorem ofEntries_nestedHost :
    Settings.ofEntries slashedEntries nestedHost = .ok slashedSettings nestedHost := by
  have hworking : (Path.ofPlace nestedHost.folder).text = "/p" := by decide
  have hroot : Settings.directoryOf none "/p" nestedHost = .ok "/p" nestedHost := by
    have hexpand : Settings.expandHome "/p" nestedHost = .ok "/p" nestedHost := rfl
    have htext : (Path.ofPlace ["p"]).text = "/p" := by decide
    have hcanonical : Act.canonical "/p" nestedHost = .ok (.ofPlace ["p"]) nestedHost := by
      unfold Act.canonical
      rw [bind_get, canonical?_nestedHost (.inl rfl)]
      rfl
    unfold Settings.directoryOf
    rw [bind_of_ok _ hexpand]
    refine (bind_of_ok _ hcanonical).trans ?_
    rw [htext]
    rfl
  have hscanned : Settings.directoryOf (some "/p") "loop///p" nestedHost =
      .ok "//p" nestedHost := by
    have hexpand : Settings.expandHome "loop///p" nestedHost = .ok "loop///p" nestedHost := rfl
    have htext : (Path.mk .doubleRoot ["p"]).text = "//p" := by decide
    have hjoin : Settings.joinText "/p" "loop///p" = "/p/loop///p" := by decide
    unfold Settings.directoryOf
    rw [bind_of_ok _ hexpand, Option.map_some, Option.getD_some, hjoin,
      bind_of_ok _ canonical_loop_nestedHost, htext]
    rfl
  unfold Settings.ofEntries
  refine (bind_of_ok _ (Act.workingPath_eq nestedHost)).trans ?_
  -- Five lists and the project root are read as they are.
  iterate 6 refine (bind_of_ok _ rfl).trans ?_
  rw [hworking]
  refine (bind_of_ok _ hroot).trans ?_
  have hone (d : Value) (hd : d ∈ [Value.text "loop///p"]) : (do
      Settings.directoryOf (some "/p") (← Settings.textOf d) : Act String) nestedHost =
      .ok "//p" nestedHost := by
    rw [List.mem_singleton.1 hd]
    exact hscanned
  refine (bind_of_ok _ (mapM_of_ok (f := fun _ => "//p") hone)).trans ?_
  rfl

/-- A walk takes each file. -/
private theorem visit_nestedHost {place : Place} {content : Content} (found : Inventory.Walked)
    (hplace : place ∈ [["p", "b.js"], ["p", "sub", "a.js"]])
    (hget : nestedTree.get? place = some (.file content)) :
    Inventory.visit slashedSettings.extensions slashedSettings.excludePatterns (.ofPlace ["p"])
      found (.ofPlace place, .file content) nestedHost =
      .ok { found with files := found.files ++ [(Path.ofPlace place).text] } nestedHost := by
  have hkept : ∀ place ∈ [["p", "b.js"], ["p", "sub", "a.js"]],
      Inventory.hasExtension slashedSettings.extensions (.ofPlace place) = true ∧
        Act.hasNul (Path.ofPlace place).text = false := by
    decide
  obtain ⟨hextension, hnul⟩ := hkept place hplace
  have hlookup : nestedHost.tree.lookup nestedHost.folder (Path.ofPlace place).text = _ :=
    lookup_nestedTree (.tail _ hplace) hget nofun
  have hfile : Act.isFile (Path.ofPlace place).text nestedHost = .ok true nestedHost :=
    bind_of_ok _ (Act.probe_of_lookup hnul hlookup)
  -- The extension is one that is asked for, nothing is excluded, and the file is there.
  unfold Inventory.visit
  simp only [hextension, Bool.not_true, Bool.false_eq_true, ↓reduceIte]
  rw [bind_of_ok _ hfile]
  rfl

/-- It goes through the folder. -/
private theorem visit_folder_nestedHost (found : Inventory.Walked) :
    Inventory.visit slashedSettings.extensions slashedSettings.excludePatterns (.ofPlace ["p"])
      found (.ofPlace ["p", "sub"], .folder) nestedHost = .ok found nestedHost := by
  have hextension : Inventory.hasExtension slashedSettings.extensions (.ofPlace ["p", "sub"]) =
      false := by decide
  unfold Inventory.visit
  simp only [hextension, Bool.not_false, ↓reduceIte]
  rfl

/-- The link to itself leads nowhere, however many links are followed. -/
private theorem walk_loop_nestedTree (budget : Nat) :
    nestedTree.walk .followed budget ["p"] ["loop"] = .error .manyLinks := by
  have hdown : Tree.GoesDown .followed "loop" [] :=
    Tree.goesDown_followed (by decide) (by decide) (by decide)
  exact Tree.walk_circle rfl hdown rfl (by decide) (by decide) budget

/-- So a walk passes over it. -/
private theorem visit_loop_nestedHost (found : Inventory.Walked) :
    Inventory.visit slashedSettings.extensions slashedSettings.excludePatterns (.ofPlace ["p"])
      found (.ofPlace ["p", "loop"], .link "loop") nestedHost = .ok found nestedHost := by
  have hextension : Inventory.hasExtension slashedSettings.extensions (.ofPlace ["p", "loop"]) =
      false := by decide
  have htext : (Path.ofPlace ["p", "loop"]).text = "/p/loop" ∧ Act.hasNul "/p/loop" = false := by
    decide
  -- The link leads to itself, so the walk runs out of links and the path is taken for no file.
  have hlookup : nestedHost.tree.lookup nestedHost.folder "/p/loop" = .error .manyLinks := by
    have hsteps : stepsOf "/p/loop" = ["p", "loop"] ∧ startOf ["p"] "/p/loop" = [] := by decide
    have hshort : isLongPath "/p/loop" = false ∧ isLongName "p" = false := by decide
    have hroot : nestedTree.isFolder [] = true := rfl
    have hget : nestedTree.get? ["p"] = some .folder := rfl
    show nestedTree.lookup ["p"] "/p/loop" = _
    rw [Tree.lookup, Tree.locate, hsteps.1, hsteps.2, hshort.1, Tree.walk]
    simp [hroot, hget, hshort.2, walk_loop_nestedTree]
  have hprobe : Act.probe "/p/loop" nestedHost = .ok none nestedHost := by
    unfold Act.probe
    rw [htext.2, if_neg Bool.false_ne_true, bind_get, hlookup]
    rfl
  unfold Inventory.visit
  simp only [hextension, Bool.not_false, ↓reduceIte, htext.1]
  rw [bind_of_ok _ (discard_of_ok hprobe)]
  rfl

private theorem lookup_folder_nestedHost :
    nestedHost.tree.lookup nestedHost.folder "/p" = .ok (["p"], .folder) := by
  have htext : (Path.ofPlace ["p"]).text = "/p" := by decide
  rw [← htext]
  exact lookup_nestedTree (by decide) rfl nofun

/-- The folder is scanned from its one place. -/
private theorem startingAt_nestedHost :
    Inventory.startingAt "//p" nestedHost = .ok (.ofPlace ["p"]) nestedHost := by
  have htext : (Path.ofText "//p").text = "//p" ∧ (Path.ofPlace ["p"]).text = "/p" := by
    decide
  apply Inventory.startingAt_of_lookup
  · rw [htext.1, canonical?_nestedHost (.inr rfl)]
  · decide
  · rw [htext.2]
    exact lookup_folder_nestedHost

/-- Two files are kept, and the link to itself and the folder between them are passed. -/
private theorem foldlM_visit_nestedHost : (Inventory.entriesBelow nestedHost.tree nestedHost.folder
    (.ofPlace ["p"])).foldlM (Inventory.visit slashedSettings.extensions
      slashedSettings.excludePatterns (.ofPlace ["p"])) {} nestedHost =
    .ok { files := nestedPaths } nestedHost := by
  -- Below the folder stand a file, the link to itself, and a folder with another file.
  have hentries : Inventory.entriesBelow nestedHost.tree nestedHost.folder (.ofPlace ["p"]) =
      [(.ofPlace ["p", "b.js"], .file (.bytes [])), (.ofPlace ["p", "loop"], .link "loop"),
        (.ofPlace ["p", "sub"], .folder), (.ofPlace ["p", "sub", "a.js"], .file (.bytes
          (Text.Utf8.encode "import b from '../b.js'\nimport '.'".toList)))] := by
    have htext : (Path.ofPlace ["p"]).text = "/p" := by decide
    rw [Inventory.entriesBelow, htext, lookup_folder_nestedHost]
    rfl
  have hpaths : [] ++ [(Path.ofPlace ["p", "b.js"]).text] ++
      [(Path.ofPlace ["p", "sub", "a.js"]).text] = nestedPaths := by decide
  rw [hentries, List.foldlM_cons, bind_of_ok _ (visit_nestedHost _ (by decide) rfl),
    List.foldlM_cons, bind_of_ok _ (visit_loop_nestedHost _), List.foldlM_cons,
    bind_of_ok _ (visit_folder_nestedHost _), List.foldlM_cons,
    bind_of_ok _ (visit_nestedHost _ (by decide) rfl), hpaths]
  rfl

/-- Both files are listed. -/
private theorem list_nestedHost : ∃ listed,
    Inventory.list slashedSettings.inventory nestedHost = .ok nestedPaths listed ∧
      listed.tree = nestedTree ∧ listed.folder = ["p"] ∧ listed.logFile = none := by
  obtain ⟨records, hwalk⟩ : ∃ records, Inventory.walk "//p" slashedSettings.extensions
      slashedSettings.excludePatterns nestedHost =
      .ok nestedPaths { nestedHost with records } := by
    unfold Inventory.walk
    rw [bind_of_ok _ startingAt_nestedHost, bind_get, bind_of_ok _ foldlM_visit_nestedHost]
    exact ⟨_, rfl⟩
  -- The walk meets the files in ascending order already.
  have hsorted : Inventory.sorted nestedPaths = nestedPaths :=
    Inventory.sorted_of_ascending (by decide) (by decide)
  obtain ⟨records', hlist⟩ := Inventory.list_of_one (r := slashedSettings.inventory) rfl hwalk rfl
  exact ⟨_, hsorted ▸ hlist, rfl, rfl, rfl⟩

/-- What the files were built into: the imports of the second one are made by two locators. -/
private theorem buildGraph_nestedHost {listed : Host} (htree : listed.tree = nestedTree)
    (hfolder : listed.folder = ["p"]) (hlogFile : listed.logFile = none) :
    ∃ c g host' textOf, slashedSettings.classifier listed = .ok c listed ∧
      buildGraph slashedSettings nestedPaths listed = .ok g host' ∧
      g.edges = g.files.flatMap (Survey.importsBy slashedSettings c listed.tree listed.folder
        g.files textOf) ∧
      Survey.Reads listed "/p/sub/a.js" (textOf "/p/sub/a.js") ∧
      ∀ text, Survey.Reads listed "/p/sub/a.js" text →
        Survey.locatorsOf slashedSettings text = ["../b.js", "."] := by
  -- Both files are there, and no log is written into them.
  have hread {place : Place} {bytes : List UInt8}
      (hplace : place ∈ [["p", "b.js"], ["p", "sub", "a.js"]])
      (hget : nestedTree.get? place = some (.file (.bytes bytes))) :
      Act.readBytes (Path.ofPlace place).text listed = .ok bytes listed := by
    have hnul : ∀ place ∈ [["p", "b.js"], ["p", "sub", "a.js"]],
        Act.hasNul (Path.ofPlace place).text = false := by
      decide
    refine Host.readBytes_eq_ok_iff.2 ⟨hnul place hplace, place, .bytes bytes, ?_, rfl⟩
    rw [htree, hfolder]
    exact lookup_nestedTree (.tail _ hplace) hget nofun
  have hpaths : (Path.ofPlace ["p", "b.js"]).text = "/p/b.js" ∧
      (Path.ofPlace ["p", "sub", "a.js"]).text = "/p/sub/a.js" := by decide
  have hreadA : Act.readBytes "/p/sub/a.js" listed = .ok _ listed :=
    hpaths.2 ▸ hread (by decide) rfl
  have hreadB : Act.readBytes "/p/b.js" listed = .ok _ listed := hpaths.1 ▸ hread (by decide) rfl
  have hplaceable : ∀ path ∈ nestedPaths,
      Survey.IsPlaceable slashedSettings listed.folder path := by
    rw [hfolder]
    simp only [nestedPaths, List.mem_cons, List.not_mem_nil, or_false, forall_eq_or_imp, forall_eq]
    exact ⟨⟨⟨["p", "b.js"], by decide, by decide⟩, by decide⟩,
      ⟨⟨["p", "sub", "a.js"], by decide, by decide⟩, by decide⟩⟩
  have hreadable : ∀ path ∈ nestedPaths, ∃ bytes, Act.readBytes path listed = .ok bytes listed := by
    simp only [nestedPaths, List.mem_cons, List.not_mem_nil, or_false, forall_eq_or_imp, forall_eq]
    exact ⟨⟨_, hreadB⟩, ⟨_, hreadA⟩⟩
  obtain ⟨c, hclassifier⟩ := Settings.classifier_ok (s := slashedSettings) (by decide) listed
  -- All paths can be placed and read, so the survey does not stop.
  obtain ⟨survey, host', textOf, hsurvey, htexts, -, -, hedges⟩ :=
    Survey.ofPaths_ok (c := c) (by decide) (Host.hasLogFile_of_unlogged hlogFile) (by decide)
      hplaceable hreadable
  refine ⟨c, survey.graph, host', textOf, hclassifier, buildGraph_of_ofPaths hclassifier hsurvey,
    hedges, htexts _ (by decide), ?_⟩
  intro text hreads
  rw [hreads.eq_of_unlogged hlogFile hreadA]
  decide +kernel

private theorem starts_slashedSettings : .text "./" ∈ slashedSettings.localStarts ∧
    .text "../" ∈ slashedSettings.localStarts := by
  simp [slashedSettings, Classifier.defaultLocalStarts]

/-- The path of the upper file, seen from the lower one, leads to it. -/
theorem buildGraph_relative_nested : ∃ listed g host',
    Inventory.list slashedSettings.inventory nestedHost = .ok nestedPaths listed ∧
      buildGraph slashedSettings nestedPaths listed = .ok g host' ∧
      g.Leads "/p/sub/a.js" "../b.js" "/p/b.js" := by
  obtain ⟨listed, hlist, htree, hfolder, hlogFile⟩ := list_nestedHost
  obtain ⟨c, g, host', -, -, hbuild, -, -, hlocators⟩ :=
    buildGraph_nestedHost htree hfolder hlogFile
  obtain ⟨textOf, hreads, hrelative, -⟩ := buildGraph_relative isProper_nestedHost (by decide)
    starts_slashedSettings.1 starts_slashedSettings.2 hlist hbuild
  have hspelled : relativeLocator "/p/sub/a.js" "/p/b.js" = "../b.js" := by decide
  have hunique : ∀ path ∈ nestedPaths,
      (Path.ofText path).names = (Path.ofText "/p/sub/a.js").names → path = "/p/sub/a.js" := by
    decide
  refine ⟨listed, g, host', hlist, hbuild, ?_⟩
  refine hrelative "/p/sub/a.js" (by decide) "/p/b.js" (by decide) (by decide) hunique
    "../b.js" ?_ (.inl hspelled.symm) ?_
  · rw [hlocators _ (hreads _ (by decide))]
    decide
  · rw [hspelled]
    exact .itself (by decide)

/-- With an extension that goes back over a slash, the same path can be cut down to a dot. The dot
is imported, but it is not local, so the import leads nowhere. And from a base directory that is
spelled with two slashes, the relative path of a file stands for a path of another spelling. -/
theorem buildGraph_cut_to_dot : ∃ listed g host' text,
    Settings.ofEntries slashedEntries nestedHost = .ok slashedSettings nestedHost ∧
      (.text "./" ∈ slashedSettings.localStarts ∧ .text "../" ∈ slashedSettings.localStarts) ∧
      Inventory.list slashedSettings.inventory nestedHost = .ok nestedPaths listed ∧
      buildGraph slashedSettings nestedPaths listed = .ok g host' ∧
      Survey.Reads listed "/p/sub/a.js" text ∧
      "." ∈ Survey.locatorsOf slashedSettings text ∧
      ShortFor slashedSettings.extensions (fun _ => False) "."
        (relativeLocator "/p/sub/a.js" "/p/b.js") ∧
      ¬ g.Leads "/p/sub/a.js" "." "/p/b.js" ∧
      relativeText (Path.ofText slashedSettings.baseDirectory) "/p/b.js" = "b.js" ∧
      Path.hasExtension "b.js".toList = true ∧
      ∀ later, resolveLocator "b.js" "/p/sub/a.js" slashedSettings.baseDirectory
        slashedSettings.extensions listed ≠ .ok (some "/p/b.js") later := by
  obtain ⟨listed, hlist, htree, hfolder, hlogFile⟩ := list_nestedHost
  obtain ⟨c, g, host', textOf, hclassifier, hbuild, hedges, hreads, hlocators⟩ :=
    buildGraph_nestedHost htree hfolder hlogFile
  refine ⟨listed, g, host', _, ofEntries_nestedHost, starts_slashedSettings, hlist, hbuild, hreads,
    ?_, ?_, ?_, by decide, by decide, ?_⟩
  · rw [hlocators _ hreads]
    decide
  · have hspelled : relativeLocator "/p/sub/a.js" "/p/b.js" = "." ++ "." ++ "/b.js" := by
      decide
    have hextensions : slashedSettings.extensions = [] ++ "/b.js" :: ["js"] := rfl
    rw [hspelled]
    exact .extended (by decide) hextensions nofun
  · rintro ⟨-, -, -, -, -, -, e, he, -, hlocator, hkind, -⟩
    rw [hedges] at he
    obtain ⟨f, -, he⟩ := List.mem_flatMap.1 he
    obtain ⟨locator, -, rfl⟩ := List.mem_map.1 he
    -- An import has the kind of its locator, and a dot has none.
    have hdot : c.classify "." = none := by
      cases hclassifier
      decide
    change locator = "." at hlocator
    subst hlocator
    cases hdot.symm.trans hkind
  · intro later hresolve
    have hlog : listed.HasLogFile := Host.hasLogFile_of_unlogged hlogFile
    obtain ⟨host₁, hfirst, -⟩ := Survey.resolveLocator_ok hlog "b.js" "/p/sub/a.js"
      slashedSettings.baseDirectory slashedSettings.extensions
    -- The one candidate keeps both slashes.
    have hcandidates : candidatePaths "b.js" "/p/sub/a.js" slashedSettings.baseDirectory
        slashedSettings.extensions = ["//p/b.js"] := by decide
    rw [hfirst] at hresolve
    have hfound := List.mem_of_find?_eq_some (EStateM.Result.ok.inj hresolve).1
    rw [hcandidates] at hfound
    simp at hfound

end ImportAtlas
