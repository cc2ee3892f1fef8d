import ImportAtlas.Proofs.Build
import ImportAtlas.Proofs.Inventory
import ImportAtlas.Proofs.Setting.Read
import ImportAtlas.Run

/-!
# Building what was listed

The paths of an inventory pass all checks of a graph: they are straight, each comes once, and none
of them is the project root, which is a folder. The statements of a file bring imports that pass
all checks too, or are skipped, whatever the file holds. So of all that could stop the work only
one thing is left, a file that cannot be read.

## Key results

- `Survey.addStatements_total`: statements never stop the work
- `Survey.addFiles_total`: only a file that cannot be read stops the work
- `buildGraph_of_list`: what an inventory lists is built into a graph, if it can be read
-/

namespace ImportAtlas

/-- The error of a file, one of those at `paths`, that cannot be read. -/
def Error.IsUnreadable (paths : List String) (e : Error) : Prop :=
  ∃ path ∈ paths, ∃ reason, e = .failure (.fileAccess path reason)

/-- A path without a NUL is read as text, or the file system says why it cannot be. -/
theorem readSource_total {p : Path} (host : Host) (hnul : Act.hasNul p.text = false) :
    (∃ text, readSource p host = .ok text host) ∨
      ∃ reason, readSource p host = .error (.failure (.fileAccess p.text reason)) host := by
  have hask := Host.ask_of_not_hasNul host hnul Tree.content
  cases hcontent : host.tree.content host.folder p.text with
  | ok content =>
    rw [hcontent] at hask
    obtain ⟨place, hlookup⟩ := Host.content_eq_ok_iff.1 hcontent
    have hread : Act.readBytes p.text host = .ok content.visible host :=
      Host.readBytes_eq_ok_iff.2 ⟨hnul, place, content, hlookup, rfl⟩
    exact .inl ⟨_, Host.readSource_ok hread⟩
  | error fault =>
    rw [hcontent] at hask
    have hread : Act.readBytes p.text host = .error (.access fault p.text) host := by
      rw [Act.readBytes, EStateM.bind_of_error _ hask]
    refine .inr ⟨"OS error: " ++ fault.text p.text, ?_⟩
    -- The fault is caught where the file is read and told with its path.
    unfold readSource
    exact EStateM.bind_of_error _ (EStateM.tryCatch_of_error _ hread)

namespace Survey

variable {s : Settings} {c : Classifier} {host : Host} {file : SourceFile}

/-- Statements never stop the work, whatever they say. -/
theorem addStatements_total (hstarts : ∀ v ∈ s.localStarts, v.isText = true)
    (hlog : host.HasLogFile) {survey : Survey} (hg : survey.graph.Consistent)
    (hfile : file ∈ survey.graph.files) (hpath : file.relativePath ≠ "")
    (statements : List (List Char)) :
    ∃ survey' host', statements.foldlM (addStatement s c file) survey host = .ok survey' host' ∧
      host.Logged host' ∧ survey'.graph.Consistent ∧
      survey'.graph.files = survey.graph.files := by
  -- What a statement keeps is that the graph is one, with the same files.
  refine EStateM.foldlM_total (fun statement _ survey₁ host₁ h => ?_) ⟨.refl host, hg, rfl⟩
  obtain ⟨hlogged₁, hg₁, hfiles₁⟩ := h
  obtain ⟨survey', host', hadd, hlogged', hg', hfiles', -⟩ :=
    addStatement_takes (c := c) hstarts hlog hlogged₁ hg₁ (hfiles₁ ▸ hfile) hpath statement
  exact ⟨survey', host', hadd, hlogged', hg', hfiles'.trans hfiles₁⟩

/-- A file that goes into a graph has a path that can be read as it is spelled, and that a graph
accepts. -/
structure IsReadable (file : SourceFile) : Prop where
  text_eq : (Path.ofText file.absolutePath).text = file.absolutePath
  hasNul_eq : Act.hasNul file.absolutePath = false
  relativePath_ne : file.relativePath ≠ ""

/-- The imports of a file are added, or the file cannot be accessed. -/
theorem addFile_total (hstarts : ∀ v ∈ s.localStarts, v.isText = true) (hlog : host.HasLogFile)
    {survey : Survey} (hg : survey.graph.Consistent) (hfile : file ∈ survey.graph.files)
    (h : IsReadable file) :
    (∃ survey' host', addFile s c survey file host = .ok survey' host' ∧ host.Logged host' ∧
      survey'.graph.Consistent ∧ survey'.graph.files = survey.graph.files) ∨
    ∃ reason, addFile s c survey file host =
      .error (.failure (.fileAccess file.absolutePath reason)) host := by
  have hnul := h.hasNul_eq
  rw [← h.text_eq] at hnul
  unfold addFile
  -- Only the reading can fail; every statement of a text is taken.
  rcases readSource_total host hnul with ⟨text, hread⟩ | ⟨reason, hread⟩
  · rw [EStateM.bind_of_ok _ hread]
    exact .inl (addStatements_total hstarts hlog hg hfile h.relativePath_ne _)
  · rw [EStateM.bind_of_error _ hread, h.text_eq]
    exact .inr ⟨reason, rfl⟩

/-- Files are read up to the first one that cannot be read, and nothing else stops the work. -/
theorem addFiles_total (hstarts : ∀ v ∈ s.localStarts, v.isText = true) (hlog : host.HasLogFile)
    (survey : Survey) (hg : survey.graph.Consistent) {rest : List SourceFile}
    (hrest : ∀ f ∈ rest, f ∈ survey.graph.files) (h : ∀ f ∈ rest, IsReadable f) :
    ∃ survey' stopped host', addFiles s c survey rest host = .ok (survey', stopped) host' ∧
      host.Logged host' ∧
      ∀ e, stopped = some e → e.IsUnreadable (rest.map (·.absolutePath)) := by
  induction rest generalizing survey host with
  | nil => exact ⟨survey, none, host, rfl, .refl host, nofun⟩
  | cons file rest ih =>
    simp only [List.mem_cons, forall_eq_or_imp] at hrest h
    unfold addFiles
    rcases addFile_total (c := c) hstarts hlog hg hrest.1 h.1 with
      ⟨survey₁, host₁, hadd, hlogged₁, hg₁, hfiles₁⟩ | ⟨reason, hadd⟩
    · -- Reading a file adds none, so those that are left are files of the new graph.
      rw [← hfiles₁] at hrest
      obtain ⟨survey', stopped, host', hadd', hlogged', hstopped⟩ :=
        ih (hlogged₁.hasLogFile hlog) survey₁ hg₁ hrest.2 h.2
      refine ⟨survey', stopped, host', ?_, hlogged₁.trans hlogged', fun e he => ?_⟩
      · rw [EStateM.bind_of_ok _ (EStateM.tryCatch_of_ok _ (EStateM.map_of_ok _ hadd))]
        exact hadd'
      · obtain ⟨path, hpath, reason, rfl⟩ := hstopped e he
        exact ⟨path, .tail _ hpath, reason, rfl⟩
    · -- The file cannot be read, so those behind it are left alone.
      have hcaught : (try Except.ok <$> addFile s c survey file catch e => pure (Except.error e) :
          Act (Except Error Survey)) host =
          .ok (.error (.failure (.fileAccess file.absolutePath reason))) host :=
        EStateM.tryCatch_of_error _ (EStateM.map_of_error _ hadd)
      rw [EStateM.bind_of_ok _ hcaught]
      refine ⟨survey, _, host, rfl, .refl host, ?_⟩
      rintro _ ⟨⟩
      exact ⟨_, List.mem_cons_self, reason, rfl⟩

/-- What an inventory lists can be put into a graph from every working directory, since the project
root is a folder. -/
theorem isAddable_of_isListed {path : String} {place : Place} (hrooted : s.IsRooted)
    (hroot : host.tree.lookup host.folder s.projectRoot = .ok (place, .folder))
    (h : IsListed host path) (here : Place) : IsAddable s here path := by
  obtain ⟨p, hp, rfl⟩ := h.exists_straight
  obtain ⟨r, hr, hrtext⟩ := hrooted
  have hleads := h.leadsToFile
  rw [hrtext] at hroot
  refine ⟨hp.ofText_text.symm ▸ hp, ?_⟩
  rw [hp.ofText_text, hrtext, hr.ofText_text, hr.absolute_eq]
  intro hnames
  -- With the same names the path would lead to the folder, but it leads to a file.
  unfold Tree.leadsToFile at hleads
  split at hleads
  · rename_i place' content hlookup
    have hsame := hp.lookup_congr hr hnames hlookup hroot
    cases hsame
  · cases hleads

/-- Paths of an inventory are all placed, and of their files those are read that come before the
first one that cannot be read. -/
theorem ofPaths_total {host₀ : Host} {paths : List String}
    (hstarts : ∀ v ∈ s.localStarts, v.isText = true) (hlog : host.HasLogFile)
    (hnodup : paths.Nodup) (hlisted : ∀ path ∈ paths, IsListed host₀ path)
    (haddable : ∀ path ∈ paths, IsAddable s host.folder path) :
    ∃ survey stopped host', ofPaths s c paths host = .ok (survey, stopped) host' ∧
      ∀ e, stopped = some e → e.IsUnreadable paths := by
  obtain ⟨g, hplaced, hg, hfiles, -⟩ := addPaths_ok [] paths
    ImportGraph.consistent_empty rfl hnodup haddable
  rw [List.nil_append] at hfiles
  -- Every file of the graph comes from a path of the list, as that path spells it.
  have hreadable : ∀ f ∈ g.files, IsReadable f := by
    intro f hf
    obtain ⟨path, hpath, id, rfl⟩ := exists_eq_fileOf (hfiles ▸ hf)
    obtain ⟨p, hp, htext⟩ := (hlisted path hpath).exists_straight
    constructor
    case text_eq => rw [absolutePath_fileOf, htext, hp.ofText_text]
    case hasNul_eq => rw [absolutePath_fileOf, (hlisted path hpath).hasNul_eq]
    case relativePath_ne =>
      rw [relativePath_fileOf]
      exact (haddable path hpath).isStraight.relativeTo_text_ne_empty _ _
  obtain ⟨survey, stopped, host₁, hread, hlogged, hstopped⟩ :=
    addFiles_total (c := c) hstarts hlog { graph := g } hg (fun _ => id) hreadable
  rw [hfiles, paths_filesOf] at hstopped
  obtain ⟨host', hsurvey⟩ := ofPaths_of_addFiles hplaced hread (hlogged.hasLogFile hlog)
  exact ⟨survey, stopped, host', hsurvey, hstopped⟩

end Survey

/-- What an inventory lists under accepted settings, whose project root is a folder, is built into a
graph whatever the files hold, then or at any later time; only a listed file that cannot be read
stops the work. -/
theorem buildGraph_of_list {entries : Dictionary String Value} {s : Settings}
    {host₀ host₀' host host' : Host} {place : Place} {paths : List String}
    (hfolder : host₀.folder.IsProper)
    (haccepted : Settings.ofEntries entries host₀ = .ok s host₀')
    (hlibraries : ∀ v ∈ s.libraries, v.isText = true)
    (hstarts : ∀ v ∈ s.localStarts, v.isText = true) (hhost : host.IsProper)
    (hroot : host.tree.lookup host.folder s.projectRoot = .ok (place, .folder))
    (hreplies : s.trackedOnly.isTruthy = true → ∀ reply ∈ host.replies, reply.NamesBelow)
    (hlist : Inventory.list s.inventory host = .ok paths host') :
    host'.HasLogFile ∧ ∀ later : Host, later.HasLogFile →
      (∃ g later', buildGraph s paths later = .ok g later') ∨
        ∃ e later', buildGraph s paths later = .error e later' ∧ e.IsUnreadable paths := by
  have hrooted := Settings.isRooted_of_ofEntries hfolder haccepted
  obtain ⟨hlogged, hnodup, hlisted⟩ := Inventory.gives_list hhost hreplies paths host' hlist
  refine ⟨hlogged.hasLogFile hhost.hasLogFile, fun later hlog => ?_⟩
  obtain ⟨c, hclassifier⟩ := Settings.classifier_ok hlibraries later
  obtain ⟨survey, stopped, later', hsurvey, hstopped⟩ := Survey.ofPaths_total (c := c) hstarts hlog
    hnodup hlisted fun path hpath =>
      Survey.isAddable_of_isListed hrooted hroot (hlisted path hpath) later.folder
  unfold buildGraph
  rw [EStateM.bind_of_ok _ hclassifier, EStateM.bind_of_ok _ hsurvey]
  cases stopped with
  | none => exact .inl ⟨survey.graph, later', rfl⟩
  | some e => exact .inr ⟨e, later', rfl, hstopped e rfl⟩

/-- A host on which version control names the first of two files twice. -/
def repeatingHost : Host where
  tree := mutualTree
  folder := ["p"]
  environment := []
  replies := [.finished 0 "a.js\x00a.js\x00" ""]
  stamp := ""

/-- The host after version control has answered. -/
def answeredHost : Host where
  tree := mutualTree
  folder := ["p"]
  environment := []
  replies := []
  calls := [⟨["git", "-C", "/p", "ls-files", "-z", "--cached"].map .text, .int 60⟩]
  stamp := ""

/-- The settings of the working directory. -/
def plainSettings : Settings where
  projectRoot := "/p"
  scanDirectories := ["/p"]

/-- The host of the example has proper names. -/
private theorem isProper_repeatingHost : repeatingHost.IsProper where
  folder := by
    unfold Place.IsProper
    decide
  tree := by
    rw [Tree.isProper_iff]
    unfold Place.IsProper
    decide
  hasLogFile := nofun

/-- The folder of the two files is found. -/
theorem lookup_folder_mutualTree : mutualTree.lookup ["p"] "/p" = .ok (["p"], .folder) := by
  have hsteps : stepsOf "/p" = ["p"] ∧ startOf ["p"] "/p" = [] := by decide
  have hshort : isLongPath "/p" = false ∧ isLongName "p" = false := by decide
  have hroot : mutualTree.isFolder [] = true := rfl
  have hget : mutualTree.get? ["p"] = some .folder := rfl
  simp [Tree.lookup, Tree.locate, Tree.walk, hsteps, hshort, hroot, hget]

/-- Its path is canonical. -/
private theorem canonical?_mutualTree :
    mutualTree.canonical? ["p"] "/p" = some (.ofPlace ["p"]) := by
  have hsegments : segmentsOf "/p" = ["", "p"] := by decide
  have hstart : startOf ["p"] "/p" = [] := by decide
  have hnone : mutualTree.linkAt? (Tree.originOf ["p"] "/p") ([] ++ ["p"]) = none := rfl
  rw [Tree.canonical?, hsegments, hstart, Tree.resolve, if_pos (.inl rfl),
    Tree.resolve_of_name (by decide) (by decide) (by decide) hnone, Tree.resolve]
  rfl

section MutualTree

variable {host : Host} (htree : host.tree = mutualTree) (hfolder : host.folder = ["p"])
include htree hfolder

/-- So it is scanned under that path. -/
theorem directoryOf_mutualTree (base : Option String) :
    Settings.directoryOf base "/p" host = .ok "/p" host := by
  have hexpand : Settings.expandHome "/p" host = .ok "/p" host := rfl
  -- The path is absolute, so the base it is joined to is dropped.
  have hjoin : (base.map fun base => Settings.joinText base "/p").getD "/p" = "/p" := by
    cases base <;> rfl
  have hcanonical : Act.canonical "/p" host = .ok (.ofPlace ["p"]) host := by
    unfold Act.canonical
    rw [EStateM.bind_get, htree, hfolder, canonical?_mutualTree]
    rfl
  unfold Settings.directoryOf
  rw [EStateM.bind_of_ok _ hexpand, hjoin, EStateM.bind_of_ok _ hcanonical]
  rfl

/-- The scan starts there. -/
theorem startingAt_mutualTree : Inventory.startingAt "/p" host = .ok (.ofPlace ["p"]) host := by
  have htext : (Path.ofText "/p").text = "/p" ∧ (Path.ofPlace ["p"]).text = "/p" := by
    decide
  apply Inventory.startingAt_of_lookup
  · rw [htree, hfolder, htext.1, canonical?_mutualTree]
  · rw [htext.2]
    decide
  · rw [htree, hfolder, htext.2, lookup_folder_mutualTree]

end MutualTree

/-- Its settings are read. -/
private theorem ofEntries_repeatingHost :
    Settings.ofEntries [] repeatingHost = .ok plainSettings repeatingHost := by
  have hworking : (Path.ofPlace repeatingHost.folder).text = "/p" := by decide
  unfold Settings.ofEntries
  refine (EStateM.bind_of_ok _ (Act.workingPath_eq repeatingHost)).trans ?_
  -- Five lists and the project root are read as they are unless set.
  iterate 6 refine (EStateM.bind_of_ok _ rfl).trans ?_
  rw [hworking]
  refine (EStateM.bind_of_ok _ (directoryOf_mutualTree rfl rfl none)).trans ?_
  have hone (d : Value) (hd : d ∈ [Value.text "/p"]) : (do
      Settings.directoryOf (some "/p") (← Settings.textOf d) : Act String) repeatingHost =
      .ok "/p" repeatingHost := by
    rw [List.mem_singleton.1 hd]
    exact directoryOf_mutualTree rfl rfl _
  refine (EStateM.bind_of_ok _ (EStateM.mapM_of_ok (f := fun _ => "/p") hone)).trans ?_
  rfl

/-- Version control names a file twice. -/
private theorem listTracked_repeatingHost : ∃ listed,
    Inventory.listTracked "/p" plainSettings.extensions plainSettings.timeout repeatingHost =
      .ok ["/p/a.js", "/p/a.js"] listed ∧ listed.logFile = none := by
  have hnames : Inventory.trackedNames (.ofPlace ["p"]) plainSettings.timeout repeatingHost =
      .ok "a.js\x00a.js\x00" answeredHost := rfl
  have hpaths : ((((("a.js\x00a.js\x00".toList.splitOn '\x00').map String.ofList).filter
      (· != "")).map fun n => (Path.ofPlace ["p"] / Path.ofText n : Path)).filter
      (Inventory.hasExtension plainSettings.extensions)) =
      [⟨.root, ["p", "a.js"]⟩, ⟨.root, ["p", "a.js"]⟩] := by decide
  have hlookup : answeredHost.tree.lookup answeredHost.folder "/p/a.js" = _ :=
    lookup_mutualTree (.inl rfl) rfl
  have hfile : Act.isFile "/p/a.js" answeredHost = .ok true answeredHost :=
    EStateM.bind_of_ok _ (Act.probe_of_lookup (by decide) hlookup)
  -- The name is answered twice and each time it is a file, so it is listed twice.
  have hkept : [Path.mk .root ["p", "a.js"], ⟨.root, ["p", "a.js"]⟩].filterM
      (fun p => Act.isFile p.text) answeredHost =
      .ok [⟨.root, ["p", "a.js"]⟩, ⟨.root, ["p", "a.js"]⟩] answeredHost := by
    refine EStateM.filterM_of_ok (p := fun _ => true) fun p hp => ?_
    obtain rfl : p = ⟨.root, ["p", "a.js"]⟩ := by simpa using hp
    exact hfile
  unfold Inventory.listTracked
  rw [EStateM.bind_of_ok _ (startingAt_mutualTree rfl rfl), EStateM.bind_of_ok _ hnames]
  rw [hpaths, EStateM.bind_of_ok _ hkept]
  exact ⟨_, rfl, rfl⟩

/-- It is listed once. -/
private theorem list_repeatingHost : ∃ listed,
    Inventory.list plainSettings.inventory repeatingHost = .ok ["/p/a.js"] listed := by
  obtain ⟨answered, htracked, hlogFile⟩ := listTracked_repeatingHost
  have hsorted : Inventory.sorted ["/p/a.js", "/p/a.js"] = ["/p/a.js"] := by
    simp [Inventory.sorted, List.eraseDups_cons]
  obtain ⟨records, hlist⟩ := Inventory.list_of_one (r := plainSettings.inventory) rfl htracked
    hlogFile
  exact ⟨_, hsorted ▸ hlist⟩

/-- A name that is given twice is listed once, and the list is built unless it cannot be read. -/
theorem buildGraph_of_repeated_name : ∃ listed,
    Settings.ofEntries [] repeatingHost = .ok plainSettings repeatingHost ∧
      Inventory.list plainSettings.inventory repeatingHost = .ok ["/p/a.js"] listed ∧
      ((∃ g later, buildGraph plainSettings ["/p/a.js"] listed = .ok g later) ∨
        ∃ e later, buildGraph plainSettings ["/p/a.js"] listed = .error e later ∧
          e.IsUnreadable ["/p/a.js"]) := by
  obtain ⟨listed, hlist⟩ := list_repeatingHost
  have hreplies : ∀ reply ∈ repeatingHost.replies, reply.NamesBelow := by
    intro reply hreply
    obtain rfl := List.mem_singleton.1 hreply
    rw [Reply.NamesBelow]
    decide
  obtain ⟨hlog, hbuild⟩ := buildGraph_of_list isProper_repeatingHost.folder ofEntries_repeatingHost
    (by decide) (by decide) isProper_repeatingHost lookup_folder_mutualTree (fun _ => hreplies)
    hlist
  exact ⟨listed, ofEntries_repeatingHost, hlist, hbuild listed hlog⟩

end ImportAtlas
