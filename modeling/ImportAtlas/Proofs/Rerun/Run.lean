import ImportAtlas.Proofs.Rerun.Building
import ImportAtlas.Proofs.Run
import ImportAtlas.Proofs.Steps
import ImportAtlas.Proofs.Store.Open

/-!
# Running again

A run writes its outputs where no source file can be, so a second run sees the same sources, builds
the same graph but for paths of targets outside the inventory, and can write its outputs once more.

## Key results

- `gives_persist`, `gives_describe`: what a run leaves when it has written its outputs
- `run_again`: a run that succeeded succeeds again, with the same outcome
-/

namespace ImportAtlas

open EStateM

/-! ## Where outputs are written -/

/-- A file is where the last name of its path leads from the folder of the path. -/
theorem Tree.IsWritten.name_place {t : Tree Content} {p : Path} (h : t.IsWritten p)
    (hclosed : t.IsClosed) : (Path.ofPlace p.place).name = p.name := by
  obtain ⟨content, hget⟩ := h.exists_file
  rcases List.eq_nil_or_concat p.names with hnil | ⟨front, n, hnames⟩
  · rw [Path.place, hnil, Place.go, List.foldl_nil, Tree.get?_nil] at hget
    cases hget
  · rw [List.concat_eq_append] at hnames
    have hparent : p.parent.place = Place.go [] front := by
      rw [Path.place, Path.parent, hnames, List.dropLast_concat]
    have hplace : p.place = (p.parent.place).go [n] := by
      rw [hparent, Path.place, hnames, Place.go_append]
    by_cases hup : n = ".."
    · -- Above a folder stands a folder.
      subst hup
      have habove := hclosed.isFolder_dropLast h.isFolder_parent
      rw [hplace, show p.parent.place.go [".."] = p.parent.place.dropLast from rfl,
        Tree.isFolder_iff.1 habove] at hget
      cases hget
    · rw [Place.go_down _ hup] at hplace
      rw [Path.name, Path.name, hnames, show (Path.ofPlace p.place).names = p.place from rfl,
        hplace]
      simp [Place.go]

section Writing

variable {s : Settings} {outputs : Outputs} {g : ImportGraph} {host host' : Host}
  {text file : String}

/-- What a run leaves when it has written one of its files: only the tree has changed, and no file
was written where a source file may be. -/
structure Host.Wrote (extensions : List String) (host host' : Host) : Prop
    extends host.SameOutside host' where
  grown : Tree.Grown (IsOutputPlace extensions) host.tree host'.tree

/-- A file that can be written, with a name that is no source's, stands where outputs are put. -/
theorem isOutputPlace_of_isWritten {extensions : List String} {t : Tree Content} {p : Path}
    (hname : ¬ IsSourceName extensions p.name) (h : t.IsWritten p) (hclosed : t.IsClosed) :
    ∀ place, p.place = place → IsOutputPlace extensions place := by
  rintro _ rfl
  rwa [IsOutputPlace, h.name_place hclosed]

/-- A graph can be saved to the database again, if it is to be saved at all. -/
def IsPersisted (s : Settings) (outputs : Outputs) (g : ImportGraph) (t : Tree Content) : Prop :=
  outputs.persist = true → ∃ file, s.databaseFile = .text file ∧
    Store.IsSaved t (s.outputPath file) ∧ g.FitsTables

/-- A diagram can be written again, if it is to be written at all. -/
def IsDescribed (s : Settings) (outputs : Outputs) (t : Tree Content) : Prop :=
  (outputs.describe || outputs.render) = true →
    ∃ file, s.dotFile = .text file ∧ t.IsWritten (s.outputPath file)

/-- To persist a graph changes nothing but places of outputs, and the database is in place then. -/
theorem gives_persist (hs : s.IsAccepted) (hhost : host.IsPlain)
    (hjournals : Store.HasJournals host.tree)
    (hname : ∀ file, s.databaseFile = .text file →
      ¬ IsSourceName s.extensions (s.outputPath file).name) :
    Gives (persist s outputs g) host fun _ host' =>
      host.Wrote s.extensions host' ∧ IsPersisted s outputs g host'.tree := by
  unfold persist
  split
  · refine (Ends.gives (asks_outputFile s host s.databaseFile)).bind ?_
    rintro _ _ ⟨rfl, file, hfile, rfl⟩
    have hp := hs.isGrounded_outputPath file
    refine (Store.gives_session_save (Eq _) hhost hp rfl hjournals g).bind ?_
    rintro _ host' ⟨hsame, hgrown, hsaved, hfits⟩
    -- The database is no source by its name, so its place is one of an output.
    have houtput := isOutputPlace_of_isWritten (hname file hfile) hsaved.isWritten hgrown.isClosed
    exact gives_pure ⟨⟨hsame, hgrown.mono houtput⟩, fun _ => ⟨file, hfile, hsaved, hfits⟩⟩
  · rename_i hpersist
    exact gives_pure ⟨⟨.refl host, .refl hhost.isPlain hhost.isClosed⟩,
      fun hyes => absurd hyes hpersist⟩

/-- A diagram is written to a file, which is logged. -/
theorem gives_writeDiagram (hhost : host.IsPlain) {p : Path} (hp : p.IsGrounded) :
    Gives (writeDiagram text p) host fun _ host' => host.SameOutside host' ∧
      Tree.Grown (Eq p.place) host.tree host'.tree ∧ host'.tree.IsWritten p := by
  have hwrite : Gives (writeText p text) host fun _ host' => ∃ tree, host' = { host with tree } ∧
      Tree.Grown (Eq p.place) host.tree tree ∧ tree.IsWritten p := by
    unfold writeText
    refine Gives.tryCatch ((Act.gives_writeBytes (Eq _) hhost hp rfl _).mono ?_) fun e host' _ => ?_
    · rintro _ host' ⟨tree, rfl, hgrown, hwritten, -⟩
      exact ⟨tree, rfl, hgrown, hwritten⟩
    · cases e <;> exact gives_throw _
  unfold writeDiagram
  refine hwrite.bind ?_
  rintro _ _ ⟨tree, rfl, hgrown, hwritten⟩
  intro u host' hlogged
  obtain ⟨host₁, hlog, hsame, htree, -⟩ :=
    Act.log_of_logFile_eq (hhost.with_tree hgrown).logFile_eq .info Layout.channel
      ("Graph description written to " ++ p.text)
  -- Telling the log has one outcome, so the host is the one that the log left.
  cases hlogged.symm.trans hlog
  have htree : host'.tree = tree := htree
  rw [htree]
  exact ⟨⟨hsame.folder_eq, hsame.logFile_eq, hsame.calls_eq, hsame.replies_eq⟩, hgrown, hwritten⟩

/-- So does writing the diagram. -/
theorem gives_describe (hs : s.IsAccepted) (hhost : host.IsPlain)
    (hname : ∀ file, s.dotFile = .text file →
      ¬ IsSourceName s.extensions (s.outputPath file).name) :
    Gives (describe s outputs text) host fun _ host' =>
      host.Wrote s.extensions host' ∧ IsDescribed s outputs host'.tree := by
  unfold describe
  split
  · refine (Ends.gives (asks_outputFile s host s.dotFile)).bind ?_
    rintro _ _ ⟨rfl, file, hfile, rfl⟩
    refine (gives_writeDiagram hhost (hs.isGrounded_outputPath file)).bind ?_
    rintro _ host' ⟨hsame, hgrown, hwritten⟩
    -- The diagram is no source file, so the tree grows only by an output.
    have houtput := isOutputPlace_of_isWritten (hname file hfile) hwritten hgrown.isClosed
    exact gives_pure ⟨⟨hsame, hgrown.mono houtput⟩, fun _ => ⟨file, hfile, hwritten⟩⟩
  · rename_i hdescribe
    exact gives_pure ⟨⟨.refl host, .refl hhost.isPlain hhost.isClosed⟩,
      fun hyes => absurd hyes hdescribe⟩

/-- What has been saved can still be saved again when more is written. -/
theorem IsPersisted.grown {written : Place → Prop} {t t' : Tree Content}
    (h : IsPersisted s outputs g t) (hgrown : Tree.Grown written t t') :
    IsPersisted s outputs g t' := by
  intro hpersist
  obtain ⟨file, hfile, hsaved, hfits⟩ := h hpersist
  exact ⟨file, hfile, { hsaved with isWritten := hsaved.isWritten.grown hgrown }, hfits⟩

/-- The diagram is still in place when the tree has grown. -/
theorem IsDescribed.grown {written : Place → Prop} {t t' : Tree Content}
    (h : IsDescribed s outputs t) (hgrown : Tree.Grown written t t') :
    IsDescribed s outputs t' := by
  intro hdescribe
  obtain ⟨file, hfile, hwritten⟩ := h hdescribe
  exact ⟨file, hfile, hwritten.grown hgrown⟩

/-! ## Writing again -/

/-- Whether a graph fits into tables does not depend on where its targets are on disk. -/
theorem ImportGraph.FitsTables.of_alike {g' : ImportGraph} (h : g.FitsTables)
    (halike : g.Alike g') :
    g'.FitsTables := by
  refine ⟨halike.files_eq ▸ h.ids, ?_⟩
  have hlength := congrArg List.length halike.edges_eq
  rw [List.length_map, List.length_map] at hlength
  rw [hlength]
  exact h.room

/-- Where a graph has been persisted, one can be persisted again. -/
theorem persist_again (hs : s.IsAccepted) (hhost : host.IsPlain)
    (h : IsPersisted s outputs g host.tree) (hg : g.Consistent) :
    ∃ path host', persist s outputs g host = .ok path host' ∧ host'.IsPlain ∧
      Tree.Grown (fun _ => True) host.tree host'.tree := by
  unfold persist
  -- The second save writes over the first, in tables that hold the same rows.
  by_cases hpersist : outputs.persist = true
  · obtain ⟨file, hfile, hsaved, hfits⟩ := h hpersist
    obtain ⟨host', hsession, hsame, hgrown⟩ :=
      Store.session_save_again hhost (hs.isGrounded_outputPath file) hsaved hg hfits
    refine ⟨some (s.outputPath file), host', ?_, hhost.of_grown hsame hgrown,
      hgrown.mono fun _ _ => trivial⟩
    rw [if_pos hpersist, hfile, bind_of_ok _ (outputFile_text s host file), bind_of_ok _ hsession]
    rfl
  · rw [if_neg hpersist]
    exact ⟨none, host, rfl, hhost, .refl hhost.isPlain hhost.isClosed⟩

/-- Where a diagram has been written, one can be written again. -/
theorem describe_again (hs : s.IsAccepted) (hhost : host.IsPlain)
    (h : IsDescribed s outputs host.tree) (text : String) :
    ∃ path host', describe s outputs text host = .ok path host' := by
  -- A run that does not describe leaves the files alone.
  by_cases hdescribe : (outputs.describe || outputs.render) = true
  · obtain ⟨file, hfile, hwritten⟩ := h hdescribe
    have hwrite := Act.writeBytes_of_isWritten hhost (hs.isGrounded_outputPath file) hwritten
      (Text.Utf8.encode text.toList)
    exact ⟨_, describe_of_writeBytes hfile hdescribe hwrite⟩
  · unfold describe
    rw [if_neg hdescribe]
    exact ⟨none, host, rfl⟩

end Writing

/-! ## Running again -/

section Running

variable {s : Settings} {host host' : Host}

/-- How the base of links is spelled does not depend on the host. -/
theorem isStateless_linkText (s : Settings) (g : ImportGraph) : IsStateless (s.linkText g) := by
  unfold Settings.linkText
  split
  · exact (Act.isStateless_spell _).map _
  · exact isStateless_pure _

/-- Nor does it depend on the paths of imports. -/
theorem Settings.linkText_eq_of_alike (s : Settings) {g g' : ImportGraph} (h : g.Alike g') :
    s.linkText g' = s.linkText g := by
  rw [linkText, linkText, h.files_eq]

/-- Before anything is written, two runs on a tree and on one that has grown from it go side by
side. -/
theorem follows_prepare (hwalk : s.trackedOnly.isTruthy = false)
    (h₀ : host.Regrown s.extensions host') (htargets : host.SameTargets s host') :
    Follows (prepare s) host (prepare s) host' fun r h r' h' => host.Abreast host' h h' ∧
      r.1.Alike r'.1 ∧ r'.2 = r.2 ∧ r'.1.Consistent := by
  have hstart : host.Abreast host' host host' := ⟨.refl host, .refl host'⟩
  unfold prepare
  refine (Inventory.follows_list hwalk h₀ hstart).bind ?_
  rintro paths h _ h' ⟨h₁, rfl, hsources⟩
  have hbuild := (follows_buildGraph h₀ h₁ htargets hsources).gives
    (Survey.gives_buildGraph (h₁.second.isPlain h₀.isPlain').hasLogFile _)
  refine hbuild.bind ?_
  rintro g t g' t' ⟨⟨h₂, halike⟩, c, survey, textOf, rfl, -, -, hsurveyed⟩
  -- The link is told by the ids and paths of the files, which the two graphs share.
  rw [s.linkText_eq_of_alike halike]
  refine (isStateless_linkText s g).follows.bind ?_
  rintro _ _ link _ ⟨rfl, rfl, rfl⟩
  exact follows_pure
    ⟨h₂, halike, ImportGraph.dotText_eq_of_alike halike _, hsurveyed.consistent⟩

/-- What a run that renders nothing leaves: a tree that has grown away from its source files, in
which its outputs can be written again. -/
theorem gives_run {outputs : Outputs} (hs : s.IsAccepted) (hhost : host.IsPlain)
    (hjournals : Store.HasJournals host.tree) (hwalk : s.trackedOnly.isTruthy = false)
    (hnames : ∀ file, s.databaseFile = .text file ∨ s.dotFile = .text file →
      ¬ IsSourceName s.extensions (s.outputPath file).name)
    (hrender : outputs.render = false) :
    Gives (run s outputs) host fun result host₁ => host.Regrown s.extensions host₁ ∧
      (∃ prepared, prepare s host = .ok (result.graph, result.dotText) prepared) ∧
      result.cycles = result.graph.cycles ∧ IsPersisted s outputs result.graph host₁.tree ∧
      IsDescribed s outputs host₁.tree := by
  intro result host₁ hrun
  obtain ⟨hostA, hostB, hostC, hprepare, hpersist, hdescribe, hdepict, hcycles⟩ :=
    gives_run_steps s outputs host result host₁ hrun
  -- Nothing is rendered.
  rw [depict_of_not_render s hrender] at hdepict
  obtain ⟨-, rfl⟩ := EStateM.Result.ok.inj hdepict
  -- Nothing has changed before something is written.
  obtain ⟨-, -, -, ⟨hstill, -⟩, -⟩ :=
    follows_prepare hwalk (.refl hhost) (.refl s host) _ _ hprepare
  have hhostA := hstill.isPlain hhost
  obtain ⟨hwroteB, hpersisted⟩ :=
    gives_persist hs hhostA (hstill.tree_eq ▸ hjournals)
      (fun file hfile => hnames file (.inl hfile))
      _ _ hpersist
  have hhostB := hhostA.of_grown hwroteB.toSameOutside hwroteB.grown
  obtain ⟨hwroteC, hdescribed⟩ :=
    gives_describe hs hhostB (fun file hfile => hnames file (.inr hfile)) _ _ hdescribe
  refine ⟨⟨hhost, hhostB.of_grown hwroteC.toSameOutside hwroteC.grown, ?_, ?_⟩, ⟨hostA, hprepare⟩,
    hcycles, hpersisted.grown hwroteC.grown, hdescribed⟩
  · rw [hwroteC.folder_eq, hwroteB.folder_eq, hstill.folder_eq]
  · rw [← hstill.tree_eq]
    exact hwroteB.grown.trans hwroteC.grown

end Running

/-- In a tree without links, walk through the directories of accepted settings, none of whose
extensions holds a slash, and let neither the database nor the diagram have the name of a source
file. If a run without rendering succeeds, then whatever its outputs have overwritten and whichever
folders were made for them, it succeeds again on the tree that it has left, with the same files and
ids, the same imports but for the paths of their targets, the same cycles and the same diagram. -/
theorem run_again {entries : Dictionary String Value} {s : Settings} {outputs : Outputs}
    {before accepted host host₁ : Host} {result : RunResult} (hfolder : before.folder.IsProper)
    (haccepted : Settings.ofEntries entries before = .ok s accepted) (hhost : host.IsPlain)
    (hjournals : Store.HasJournals host.tree) (hwalk : s.trackedOnly.isTruthy = false)
    (hslash : ∀ e ∈ s.extensions, '/' ∉ e.toList)
    (hnames : ∀ file, s.databaseFile = .text file ∨ s.dotFile = .text file →
      ¬ IsSourceName s.extensions (s.outputPath file).name)
    (hrender : outputs.render = false) (hrun : run s outputs host = .ok result host₁) :
    ∃ result' host₂, run s outputs host₁ = .ok result' host₂ ∧
      result'.graph.files = result.graph.files ∧
      result'.graph.edges.map (·.withoutPath) = result.graph.edges.map (·.withoutPath) ∧
      result'.cycles = result.cycles ∧ result'.dotText = result.dotText := by
  have hs := Settings.gives_ofEntries hfolder entries s accepted haccepted
  obtain ⟨hregrown, ⟨prepared, hprepare⟩, hcycles, hpersisted, hdescribed⟩ :=
    gives_run hs hhost hjournals hwalk hnames hrender _ _ hrun
  have htargets : host.SameTargets s host₁ :=
    hregrown.sameTargets (fun e he => ⟨hs.isBare_of_mem e he, hslash e he⟩)
      hs.isAbsolute_baseDirectory
  -- The second run sees the same, and can write the same files.
  obtain ⟨⟨graph', dotText'⟩, hostA, hprepare', ⟨-, hstill⟩, halike, hdotText, hconsistent⟩ :=
    follows_prepare hwalk hregrown htargets _ _ hprepare
  -- The new graph has the ids of the old one, so it fits the same tables.
  have hpersisted' : IsPersisted s outputs graph' hostA.tree := by
    rw [hstill.tree_eq]
    intro hpersist
    obtain ⟨file, hfile, hsaved, hfits⟩ := hpersisted hpersist
    exact ⟨file, hfile, hsaved, hfits.of_alike halike⟩
  obtain ⟨databasePath, hostB, hpersist, hhostB, hgrownB⟩ :=
    persist_again hs (hstill.isPlain hregrown.isPlain') hpersisted' hconsistent
  obtain ⟨dotPath, host₂, hdescribe⟩ :=
    describe_again hs hhostB (IsDescribed.grown (hstill.tree_eq ▸ hdescribed) hgrownB) dotText'
  refine ⟨_, host₂, run_of_steps hprepare' hpersist hdescribe (depict_of_not_render s hrender),
    halike.files_eq, halike.edges_eq, ?_, hdotText⟩
  · rw [hcycles]
    exact ImportGraph.cycles_eq_of_alike halike

/-- What is set for two files that import each other: they are found by walking. -/
def walkedEntries (extensions : List String) : Dictionary String Value :=
  [("extensions", .list (extensions.map .text)), ("known_libraries", .list []),
    ("tracked_only", .bool false), ("exclude_patterns", .list [])]

/-- The settings that are made of it. -/
def walkedSettings (extensions : List String) : Settings where
  projectRoot := "/p"
  scanDirectories := ["/p"]
  extensions
  libraries := []
  trackedOnly := .bool false
  excludePatterns := []

/-- Only the diagram is written. -/
def diagramOnly : Outputs where
  persist := false
  render := false

/-- An extension that leads from every file to the diagram beside it. -/
def climbingExtension : String :=
  "/../diagram.dot"

section Mutual

/-- The host of the two files is a plain one. -/
theorem isPlain_mutualHost : mutualHost.IsPlain where
  folder := by
    unfold Place.IsProper
    decide
  isPlain := by
    intro e he target
    have hentries : ∀ e ∈ mutualTree.entries, ∀ target, e.2 ≠ .link target := by
      simp [mutualTree]
    exact hentries e he target
  isClosed := Tree.isClosed_of_entries (by decide)
  isProper := by
    rw [Tree.isProper_iff]
    unfold Place.IsProper
    decide
  logFile_eq := rfl

private theorem hasJournals_mutualHost : Store.HasJournals mutualHost.tree := by
  intro place tables hget
  -- There is no database on this host.
  have hentries : ∀ e ∈ mutualTree.entries, ∀ tables, e.2 ≠ .file (.database tables) := by
    simp [mutualTree]
  have hroot : place ≠ [] := by
    rintro rfl
    rw [Tree.get?_nil] at hget
    cases hget
  exact absurd rfl (hentries _ (Tree.mem_entries_of_get? hroot hget) tables)

variable {extensions : List String}
  (hextensions : extensions = ["js"] ∨ extensions = [climbingExtension, "js"])
include hextensions

/-- The settings of the example are read. -/
theorem ofEntries_mutualHost :
    Settings.ofEntries (walkedEntries extensions) mutualHost =
      .ok (walkedSettings extensions) mutualHost := by
  have hworking : (Path.ofPlace mutualHost.folder).text = "/p" := by decide
  have hone (d : Value) (hd : d ∈ [Value.text "/p"]) : (do
      Settings.directoryOf (some "/p") (← Settings.textOf d) : Act String) mutualHost =
      .ok "/p" mutualHost := by
    rw [List.mem_singleton.1 hd]
    exact directoryOf_mutualTree rfl rfl _
  unfold Settings.ofEntries
  rcases hextensions with rfl | rfl
  all_goals
    refine (bind_of_ok _ (Act.workingPath_eq mutualHost)).trans ?_
    -- Five lists and the project root are read as they are.
    iterate 6 refine (bind_of_ok _ rfl).trans ?_
    rw [hworking]
    refine (bind_of_ok _ (directoryOf_mutualTree rfl rfl none)).trans ?_
    refine (bind_of_ok _ (mapM_of_ok (f := fun _ => "/p") hone)).trans ?_
    rfl

/-- A walk takes each of the two files. -/
private theorem visit_mutualHost {name : String} (hname : name = "a.js" ∨ name = "b.js")
    {bytes : List UInt8} (hget : mutualTree.get? ["p", name] = some (.file (.bytes bytes)))
    (found : Inventory.Walked) :
    Inventory.visit extensions [] (.ofPlace ["p"]) found
      (.ofPlace ["p", name], .file (.bytes bytes)) mutualHost =
      .ok { found with files := found.files ++ ["/p/" ++ name] } mutualHost := by
  -- No step of the visit depends on which of the two names is read.
  have hkept : Inventory.hasExtension extensions (.ofPlace ["p", name]) = true ∧
      (Path.ofPlace ["p", name]).text = "/p/" ++ name ∧ Act.hasNul ("/p/" ++ name) = false := by
    rcases hextensions with rfl | rfl <;> rcases hname with rfl | rfl <;> decide
  have hlookup : mutualHost.tree.lookup mutualHost.folder ("/p/" ++ name) = _ :=
    lookup_mutualTree hname hget
  have hfile : Act.isFile ("/p/" ++ name) mutualHost = .ok true mutualHost :=
    bind_of_ok _ (Act.probe_of_lookup hkept.2.2 hlookup)
  unfold Inventory.visit
  simp only [hkept.1, hkept.2.1, Bool.not_true, Bool.false_eq_true, ↓reduceIte]
  rw [bind_of_ok _ hfile]
  rfl

/-- So it finds both. -/
private theorem walk_mutualHost : ∃ records,
    Inventory.walk "/p" extensions [] mutualHost =
      .ok ["/p/a.js", "/p/b.js"] { mutualHost with records } := by
  -- The folder holds the two source files and nothing else.
  have hentries : Inventory.entriesBelow mutualHost.tree mutualHost.folder (.ofPlace ["p"]) =
      [(.ofPlace ["p", "a.js"], .file (.bytes (Text.Utf8.encode "import b from './b'".toList))),
        (.ofPlace ["p", "b.js"],
          .file (.bytes (Text.Utf8.encode "import a from './a'".toList)))] := by
    have htext : (Path.ofPlace ["p"]).text = "/p" := by decide
    have hlookup : mutualHost.tree.lookup mutualHost.folder "/p" = _ := lookup_folder_mutualTree
    rw [Inventory.entriesBelow, htext, hlookup]
    rfl
  have hvisited : (Inventory.entriesBelow mutualHost.tree mutualHost.folder
      (.ofPlace ["p"])).foldlM (Inventory.visit extensions [] (.ofPlace ["p"])) {} mutualHost =
      .ok { files := ["/p/a.js", "/p/b.js"] } mutualHost := by
    rw [hentries, List.foldlM_cons,
      bind_of_ok _ (visit_mutualHost hextensions (.inl rfl) rfl _), List.foldlM_cons,
      bind_of_ok _ (visit_mutualHost hextensions (.inr rfl) rfl _)]
    rfl
  unfold Inventory.walk
  rw [bind_of_ok _ (startingAt_mutualTree rfl rfl), bind_get, bind_of_ok _ hvisited]
  exact ⟨_, rfl⟩

/-- Both are listed, and the tree is as before. -/
private theorem list_mutualHost : ∃ listed,
    Inventory.list (walkedSettings extensions).inventory mutualHost =
      .ok ["/p/a.js", "/p/b.js"] listed ∧
      listed.tree = mutualTree ∧ listed.folder = ["p"] ∧ listed.logFile = none := by
  obtain ⟨records, hwalk⟩ := walk_mutualHost hextensions
  -- The files come in the order in which they are listed.
  have hsorted : Inventory.sorted ["/p/a.js", "/p/b.js"] = ["/p/a.js", "/p/b.js"] :=
    Inventory.sorted_of_ascending (by decide) (by decide)
  obtain ⟨records', hlist⟩ := Inventory.list_of_one
    (r := (walkedSettings extensions).inventory) rfl hwalk rfl
  exact ⟨_, hsorted ▸ hlist, rfl, rfl, rfl⟩

omit hextensions in
/-- There is no diagram yet. -/
private theorem locate_diagram {last : LastStep} :
    mutualTree.locate ["p"] last "/p/diagram.dot" = .ok (.vacant ["p", "diagram.dot"]) := by
  have hpath : (Path.ofPlace ["p", "diagram.dot"]).text = "/p/diagram.dot" := by decide
  have hproper : Place.IsProper ["p", "diagram.dot"] := by
    unfold Place.IsProper
    decide
  have hshort : isLongPath "/p/diagram.dot" = false ∧ isLongName "p" = false ∧
      isLongName "diagram.dot" = false := by decide
  rw [← hpath] at hshort ⊢
  exact (isPlain_mutualHost.isPlain.locate_eq_ok_iff isPlain_mutualHost.isClosed
    hproper.isStraight.isGrounded).2 ⟨hshort.1, ⟨rfl, hshort.2.1, rfl, hshort.2.2, trivial⟩, rfl⟩

/-- The first candidate that is there is the second file, whether or not a candidate before it leads
to where the diagram is going to be. -/
private theorem find?_candidatePaths_mutualTree :
    (candidatePaths "./b" "/p/a.js" (walkedSettings extensions).baseDirectory
      (walkedSettings extensions).extensions).find? (mutualTree.leadsToFile ["p"]) =
      some "/p/b.js" := by
  have hlookup : mutualTree.lookup ["p"] "/p/b.js" = _ := lookup_mutualTree (.inr rfl) rfl
  have hfound : mutualTree.leadsToFile ["p"] "/p/b.js" = true := by
    rw [Tree.leadsToFile, hlookup]
  -- Before the first run no diagram is there, so the candidate in front is passed by.
  have hfree : mutualTree.leadsToFile ["p"] "/p/diagram.dot" = false := by
    rw [Tree.leadsToFile, Tree.lookup, locate_diagram]
  rcases hextensions with rfl | rfl
  · have hcandidates : candidatePaths "./b" "/p/a.js" (walkedSettings ["js"]).baseDirectory
        (walkedSettings ["js"]).extensions = ["/p/b.js"] := by decide
    rw [hcandidates, List.find?_cons_of_pos hfound]
  · have hcandidates : candidatePaths "./b" "/p/a.js"
        (walkedSettings [climbingExtension, "js"]).baseDirectory
        (walkedSettings [climbingExtension, "js"]).extensions =
        ["/p/diagram.dot", "/p/b.js"] := by decide
    rw [hcandidates, List.find?_cons_of_neg (by simp [hfree]), List.find?_cons_of_pos hfound]

omit hextensions in
/-- Both can be put into the graph. -/
private theorem isPlaceable_mutualTree : ∀ path ∈ ["/p/a.js", "/p/b.js"],
    Survey.IsPlaceable (walkedSettings extensions) ["p"] path := by
  have hroot :
      (Path.ofText "/p/a.js").names ≠ ((Path.ofText "/p").absolute (.ofPlace ["p"])).names ∧
      (Path.ofText "/p/b.js").names ≠ ((Path.ofText "/p").absolute (.ofPlace ["p"])).names := by
    decide
  simp only [List.mem_cons, List.not_mem_nil, or_false, forall_eq_or_imp, forall_eq]
  exact ⟨⟨⟨["p", "a.js"], by decide, by decide⟩, hroot.1⟩,
    ⟨⟨["p", "b.js"], by decide, by decide⟩, hroot.2⟩⟩

/-- The import of the first file leads to the second one. -/
private theorem buildGraph_walked {listed : Host} (htree : listed.tree = mutualTree)
    (hfolder : listed.folder = ["p"]) (hlogFile : listed.logFile = none) : ∃ g host',
      buildGraph (walkedSettings extensions) ["/p/a.js", "/p/b.js"] listed = .ok g host' ∧
      ∃ e ∈ g.edges, e.importerId = 1 ∧ e.locator = "./b" ∧ e.targetId = some 2 := by
  have hreadA : Act.readBytes "/p/a.js" listed = .ok _ listed :=
    readBytes_mutualTree htree hfolder (.inl rfl) rfl
  have hreadB : Act.readBytes "/p/b.js" listed = .ok _ listed :=
    readBytes_mutualTree htree hfolder (.inr rfl) rfl
  have hreadable : ∀ path ∈ ["/p/a.js", "/p/b.js"],
      ∃ bytes, Act.readBytes path listed = .ok bytes listed := by
    simp only [List.mem_cons, List.not_mem_nil, or_false, forall_eq_or_imp, forall_eq]
    exact ⟨⟨_, hreadA⟩, ⟨_, hreadB⟩⟩
  have hstarts : ∀ v ∈ (walkedSettings []).localStarts, v.isText = true := by decide
  obtain ⟨c, hclassifier⟩ := Settings.classifier_ok (s := walkedSettings extensions) nofun listed
  obtain ⟨survey, host', textOf, hsurvey, htexts, hfiles, -, hedges⟩ :=
    Survey.ofPaths_ok (s := walkedSettings extensions) (c := c) hstarts
      (Host.hasLogFile_of_unlogged hlogFile) (by decide) (hfolder ▸ isPlaceable_mutualTree)
      hreadable
  have hbuild := buildGraph_of_ofPaths hclassifier hsurvey
  generalize survey.graph = g at hfiles hedges hbuild
  -- The text of `a.js` is what the host holds, whichever extensions are looked for.
  have hlocators : Survey.locatorsOf (walkedSettings extensions) (textOf "/p/a.js") = ["./b"] := by
    rw [(htexts "/p/a.js" (by decide)).eq_of_unlogged hlogFile hreadA]
    rcases hextensions with rfl | rfl <;> decide +kernel
  refine ⟨g, host', hbuild, Survey.importOf (walkedSettings extensions) c listed.tree listed.folder
    g.files (Survey.fileOf (walkedSettings extensions) listed.folder "/p/a.js" 1) "./b", ?_, ?_⟩
  · rw [hedges, List.mem_flatMap]
    -- The first of the two files is the one that imports.
    have hfirst : Survey.fileOf (walkedSettings extensions) listed.folder "/p/a.js" 1 ∈ g.files :=
      hfiles ▸ List.mem_cons_self
    refine ⟨_, hfirst, ?_⟩
    rw [Survey.importsBy, Survey.absolutePath_fileOf, hlocators]
    exact List.mem_singleton_self _
  · rw [Survey.importOf, Survey.absolutePath_fileOf, htree, hfolder,
      find?_candidatePaths_mutualTree hextensions, hfiles, hfolder]
    cases hclassifier
    rcases hextensions with rfl | rfl <;> decide

/-- The outputs are no sources. -/
private theorem name_mutualHost (file : String)
    (hfile : (walkedSettings extensions).databaseFile = .text file ∨
      (walkedSettings extensions).dotFile = .text file) :
    ¬ IsSourceName extensions ((walkedSettings extensions).outputPath file).name := by
  unfold IsSourceName
  rcases hfile with hfile | hfile <;> cases hfile <;> rcases hextensions with rfl | rfl <;>
    decide

/-- The folder is there and the diagram is not, so it can be written. -/
private theorem describe_mutualHost {prepared : Host} (htree : prepared.tree = mutualTree)
    (hfolder : prepared.folder = ["p"]) (text : String) :
    ∃ path host₁, describe (walkedSettings extensions) diagramOnly text prepared =
      .ok path host₁ := by
  have hpath : ((walkedSettings extensions).outputPath "diagram.dot").text = "/p/diagram.dot" ∧
      ((walkedSettings extensions).outputPath "diagram.dot").parent = .ofPlace ["p"] ∧
      (Path.ofPlace ["p"]).text = "/p" := by
    rcases hextensions with rfl | rfl <;> decide
  have hlookup : prepared.tree.lookup prepared.folder (Path.ofPlace ["p"]).text =
      .ok ((Path.ofPlace ["p"]).place, .folder) := by
    rw [htree, hfolder, hpath.2.2]
    exact lookup_folder_mutualTree
  -- The folder of the diagram is there, so none is made.
  have hmade : Act.makeFolders ((walkedSettings extensions).outputPath "diagram.dot").parent
      prepared = .ok () prepared := by
    rw [hpath.2.1]
    exact Act.makeFolders_of_lookup (by decide) hlookup
  have hplace : prepared.tree.filePlace prepared.folder
      ((walkedSettings extensions).outputPath "diagram.dot").text = .ok ["p", "diagram.dot"] := by
    rw [htree, hfolder, hpath.1, Tree.filePlace, locate_diagram]
  have hnul : Act.hasNul ((walkedSettings extensions).outputPath "diagram.dot").text = false := by
    rw [hpath.1]
    decide
  exact ⟨_, describe_of_writeBytes rfl rfl (Act.writeBytes_of_filePlace hmade hnul hplace _)⟩

/-- The run finds the import of one file by the other. -/
theorem run_mutualHost : ∃ result host₁,
    run (walkedSettings extensions) diagramOnly mutualHost = .ok result host₁ ∧
      ∃ e ∈ result.graph.edges, e.importerId = 1 ∧ e.locator = "./b" ∧ e.targetId = some 2 := by
  obtain ⟨listed, hlist, htree, hfolder, hlogFile⟩ := list_mutualHost hextensions
  obtain ⟨g, prepared, hbuild, hedge⟩ := buildGraph_walked hextensions htree hfolder hlogFile
  have hprepare : prepare (walkedSettings extensions) mutualHost =
      .ok (g, g.dotText none) prepared := by
    unfold prepare
    rw [bind_of_ok _ hlist, bind_of_ok _ hbuild]
    rfl
  -- Nothing was written while the graph was built.
  obtain ⟨-, -, -, ⟨hstill, -⟩, -⟩ := follows_prepare rfl (.refl isPlain_mutualHost)
    (.refl (walkedSettings extensions) mutualHost) _ _ hprepare
  obtain ⟨path, host₁, hdescribe⟩ := describe_mutualHost hextensions hstill.tree_eq
    hstill.folder_eq (g.dotText none)
  exact ⟨_, host₁, run_of_steps hprepare rfl hdescribe (depict_of_not_render _ rfl), hedge⟩

end Mutual

/-- The diagram of two files that import each other can be written twice. -/
theorem run_again_mutual : ∃ result host₁ result' host₂,
    run (walkedSettings ["js"]) diagramOnly mutualHost = .ok result host₁ ∧
      run (walkedSettings ["js"]) diagramOnly host₁ = .ok result' host₂ ∧
      result'.graph.files = result.graph.files ∧
      result'.graph.edges.map (·.withoutPath) = result.graph.edges.map (·.withoutPath) ∧
      result'.cycles = result.cycles ∧ result'.dotText = result.dotText := by
  obtain ⟨result, host₁, hrun, -⟩ := run_mutualHost (.inl rfl)
  obtain ⟨result', host₂, hagain⟩ := run_again isPlain_mutualHost.folder
    (ofEntries_mutualHost (.inl rfl)) isPlain_mutualHost hasJournals_mutualHost rfl (by decide)
    (name_mutualHost (.inl rfl)) rfl hrun
  exact ⟨result, host₁, result', host₂, hrun, hagain⟩

/-- With an extension that climbs, the diagram that the first run has written is the first candidate
of the second one. It is no source file, so the import that had a target has none any more. -/
theorem run_again_climbing : ∃ result host₁,
    Settings.ofEntries (walkedEntries [climbingExtension, "js"]) mutualHost =
        .ok (walkedSettings [climbingExtension, "js"]) mutualHost ∧
      mutualHost.IsPlain ∧
      (walkedSettings [climbingExtension, "js"]).trackedOnly.isTruthy = false ∧
      (∀ file, (walkedSettings [climbingExtension, "js"]).databaseFile = .text file ∨
          (walkedSettings [climbingExtension, "js"]).dotFile = .text file →
        ¬ IsSourceName [climbingExtension, "js"]
          ((walkedSettings [climbingExtension, "js"]).outputPath file).name) ∧
      run (walkedSettings [climbingExtension, "js"]) diagramOnly mutualHost = .ok result host₁ ∧
      ∀ result' host₂,
        run (walkedSettings [climbingExtension, "js"]) diagramOnly host₁ = .ok result' host₂ →
        result'.graph.edges.map (·.withoutPath) ≠ result.graph.edges.map (·.withoutPath) := by
  obtain ⟨result, host₁, hrun, e, he, himporter, hlocator, htarget⟩ := run_mutualHost (.inr rfl)
  obtain ⟨hregrown, -, -, -, hdescribed⟩ := gives_run
    (Settings.gives_ofEntries isPlain_mutualHost.folder _ _ _ (ofEntries_mutualHost (.inr rfl)))
    isPlain_mutualHost hasJournals_mutualHost rfl (name_mutualHost (.inr rfl)) rfl _ _ hrun
  refine ⟨result, host₁, ofEntries_mutualHost (.inr rfl), isPlain_mutualHost, rfl,
    name_mutualHost (.inr rfl), hrun, fun result' host₂ hrun' hsame => ?_⟩
  -- The second run lists the same files, and builds its graph from them.
  obtain ⟨listed, hlist, -⟩ := list_mutualHost (.inr rfl)
  obtain ⟨paths, listed', hlist', ⟨-, hstill⟩, rfl, -⟩ :=
    Inventory.follows_list rfl hregrown ⟨.refl mutualHost, .refl host₁⟩ _ _ hlist
  obtain ⟨prepared, -, -, hprepare, -⟩ := gives_run_steps _ _ _ _ _ hrun'
  obtain ⟨paths', listed₂, built, hlist₂, hbuild⟩ := gives_prepare_built _ _ _ _ hprepare
  cases hlist₂.symm.trans hlist'
  obtain ⟨c, survey, textOf, hgraph, -, -, hsurveyed⟩ :=
    Survey.gives_buildGraph (hstill.isPlain hregrown.isPlain').hasLogFile _ _ _ hbuild
  rw [show result'.graph = survey.graph from hgraph] at hsame
  -- The import that is the same as that of the first run comes from the first file, too.
  obtain ⟨e', he', hpathless⟩ : ∃ e' ∈ survey.graph.edges, e'.withoutPath = e.withoutPath :=
    List.mem_map.1 (hsame ▸ List.mem_map_of_mem he)
  obtain ⟨⟨file, statement⟩, hplaced, found, -, rfl⟩ := hsurveyed.exists_placed e' he'
  have himporter' : file.id = 1 := (congrArg ImportEdge.importerId hpathless).trans himporter
  have hlocator' : String.ofList found = "./b" :=
    (congrArg ImportEdge.locator hpathless).trans hlocator
  have htarget' := (congrArg ImportEdge.targetId hpathless).trans htarget
  obtain rfl : file = Survey.fileOf (walkedSettings [climbingExtension, "js"]) listed'.folder
      "/p/a.js" 1 := by
    obtain ⟨f, hf, hplaced⟩ := List.mem_flatMap.1 hplaced
    obtain ⟨_, _, hpair⟩ := List.mem_map.1 hplaced
    cases hpair
    rcases List.mem_cons.1 hf with rfl | hf
    · rfl
    · cases List.mem_singleton.1 hf
      cases himporter'
  -- Its first candidate is the diagram, which has been written by now.
  have hleads : listed'.tree.leadsToFile listed'.folder "/p/diagram.dot" = true := by
    obtain ⟨name, hname, hwritten⟩ := hdescribed rfl
    cases hname
    have hpath : (walkedSettings [climbingExtension, "js"]).outputPath "diagram.dot" =
        .ofPlace ["p", "diagram.dot"] ∧
        (Path.ofPlace ["p", "diagram.dot"]).text = "/p/diagram.dot" := by decide
    have hproper : Place.IsProper ["p", "diagram.dot"] := by
      unfold Place.IsProper
      decide
    rw [hpath.1] at hwritten
    rw [← hpath.2, hstill.tree_eq]
    refine (hregrown.isPlain'.isPlain.leadsToFile_iff hregrown.isPlain'.isClosed
      hproper.isStraight).2 ⟨hwritten.isLongPath_eq, hwritten.passes, ?_⟩
    rw [← hproper.isStraight.place_eq]
    exact hwritten.exists_file
  have hcandidates : candidatePaths "./b" "/p/a.js"
      (walkedSettings [climbingExtension, "js"]).baseDirectory
      (walkedSettings [climbingExtension, "js"]).extensions = ["/p/diagram.dot", "/p/b.js"] := by
    decide
  have hunlisted : ((Survey.filesOf (walkedSettings [climbingExtension, "js"]) listed'.folder
      ["/p/a.js", "/p/b.js"]).find? fun f => f.absolutePath == "/p/diagram.dot") = none := by
    simp [Survey.filesOf]
  rw [ImportEdge.withoutPath, Survey.importOf, Survey.absolutePath_fileOf, hlocator', hcandidates,
    List.find?_cons_of_pos hleads] at htarget'
  split at htarget'
  · rw [Option.bind_some, hunlisted] at htarget'
    cases htarget'
  · cases htarget'

end ImportAtlas
