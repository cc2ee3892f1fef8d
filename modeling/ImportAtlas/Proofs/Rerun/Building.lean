import ImportAtlas.Proofs.Graph.Pathless
import ImportAtlas.Proofs.Rerun.Listing
import Mathlib.Data.List.Find

/-!
# Building again

In a tree that has grown away from its source files, the same files hold the same texts. A locator
without an extension stands for the same file; one that has an extension may now stand for a file
that was written, but that file is not in the inventory. So the graph is the same but for the paths
of such targets.

## Key results

- `follows_resolveLocator`: what a locator stands for
- `Survey.follows_addStatement`: what a statement becomes
- `follows_buildGraph`: the graph is the same but for target paths
-/

namespace ImportAtlas

open EStateM

/-! ## Targets -/

namespace Tree

variable {t : Tree Content} {here : Place} {p : Path}

/-- Names that lead to an entry are passed, unless they are too long. -/
theorem IsClosed.passes (h : t.IsClosed) (here : Place) {names : List String}
    (hproper : Place.IsProper names) (hshort : ∀ n ∈ names, isLongName n = false)
    (hget : t.get? (here ++ names) ≠ none) : t.Passes here names := by
  induction names generalizing here with
  | nil => trivial
  | cons n rest ih =>
    simp only [List.mem_cons, forall_eq_or_imp] at hshort
    -- Whatever is above an entry of a closed tree is a folder.
    refine ⟨h.isFolder_of_append (List.cons_ne_nil n rest) hget, hshort.1, ?_⟩
    rw [Place.go_down here (hproper n List.mem_cons_self).2]
    exact ih _ (fun m hm => hproper m (.tail _ hm)) hshort.2 (by rwa [List.append_cons] at hget)

/-- In a plain tree, a straight path leads to a file if the file stands at its names. -/
theorem IsPlain.leadsToFile_iff (h : t.IsPlain) (hclosed : t.IsClosed) (hp : p.IsStraight) :
    t.leadsToFile here p.text = true ↔ isLongPath p.text = false ∧ t.Passes [] p.names ∧
      ∃ content, t.get? p.names = some (.file content) := by
  -- Without links, looking up is walking by names.
  have hlookup (place : Place) (entry : Entry Content) :
      t.lookup here p.text = .ok (place, entry) ↔ _ :=
    h.lookup_eq_ok_iff hclosed hp.isGrounded
  rw [hp.place_eq] at hlookup
  unfold leadsToFile
  constructor
  · intro hleads
    split at hleads
    · rename_i place content hfound
      obtain ⟨hlong, hpasses, rfl, hget⟩ := (hlookup _ _).1 hfound
      exact ⟨hlong, hpasses, content, hget⟩
    · cases hleads
  · rintro ⟨hlong, hpasses, content, hget⟩
    rw [(hlookup _ _).2 ⟨hlong, hpasses, rfl, hget⟩]

end Tree

section

variable {host host' h h' : Host} {extensions : List String} {p : Path}

namespace Host.Regrown

/-- What leads to a file still does. -/
theorem leadsToFile_of (h₀ : host.Regrown extensions host') (hp : p.IsStraight)
    (hleads : host.tree.leadsToFile host.folder p.text = true) :
    host'.tree.leadsToFile host'.folder p.text = true := by
  obtain ⟨hlong, hpasses, content, hget⟩ :=
    (h₀.isPlain.isPlain.leadsToFile_iff h₀.isPlain.isClosed hp).1 hleads
  exact (h₀.isPlain'.isPlain.leadsToFile_iff h₀.isPlain'.isClosed hp).2
    ⟨hlong, hpasses.mono fun _ => h₀.grown.isFolder, h₀.grown.get?_file hget⟩

/-- Where the name is that of a source file, no other path leads to one now. -/
theorem leadsToFile_eq (h₀ : host.Regrown extensions host') (hp : p.IsStraight)
    (hname : IsSourceName extensions p.name) :
    host'.tree.leadsToFile host'.folder p.text = host.tree.leadsToFile host.folder p.text := by
  rw [Bool.eq_iff_iff]
  refine ⟨fun hleads => ?_, h₀.leadsToFile_of hp⟩
  obtain ⟨hlong, hpasses, content, hget⟩ :=
    (h₀.isPlain'.isPlain.leadsToFile_iff h₀.isPlain'.isClosed hp).1 hleads
  -- What is new are folders and output files, and a source file is neither.
  have hget₀ : host.tree.get? p.names = some (.file content) := by
    rcases h₀.grown.get?_cases p.names with hsame | ⟨-, hfolder, -⟩ | ⟨houtput, -⟩
    · rw [← hsame, hget]
    · rw [hget] at hfolder
      cases hfolder
    · exact absurd hname houtput
  refine (h₀.isPlain.isPlain.leadsToFile_iff h₀.isPlain.isClosed hp).2 ⟨hlong, ?_, content, hget₀⟩
  apply h₀.isPlain.isClosed.passes [] hp.names hpasses.isLongName_eq
  rw [List.nil_append, hget₀]
  exact nofun

end Host.Regrown

/-- The file that a locator stands for. -/
def targetOf (host : Host) (locator importer baseDirectory : String) (extensions : List String) :
    Option String :=
  (candidatePaths locator importer baseDirectory extensions).find?
    (host.tree.leadsToFile host.folder)

/-- Each locator stands for the same file in both hosts, or for none at first and then for one that
was no file. -/
def Host.SameTargets (s : Settings) (host host' : Host) : Prop :=
  ∀ locator importer, (Path.ofText importer).isAbsolute = true →
    targetOf host' locator importer s.baseDirectory s.extensions =
        targetOf host locator importer s.baseDirectory s.extensions ∨
      targetOf host locator importer s.baseDirectory s.extensions = none ∧ ∃ path,
        targetOf host' locator importer s.baseDirectory s.extensions = some path ∧
        host.tree.leadsToFile host.folder path = false

section Targets

variable {s : Settings} {locator importer baseDirectory : String}

/-- A host leads to the files that it leads to. -/
theorem Host.SameTargets.refl (s : Settings) (host : Host) : host.SameTargets s host :=
  fun _ _ _ => .inl rfl

/-- In a tree that has grown away from its source files targets are the same, unless an extension
goes on behind a slash. -/
theorem Host.Regrown.sameTargets (h₀ : host.Regrown s.extensions host')
    (hextensions : ∀ e ∈ s.extensions, IsBare e ∧ '/' ∉ e.toList)
    (hbase : (Path.ofText s.baseDirectory).isAbsolute = true) : host.SameTargets s host' := by
  intro locator importer himporter
  have hcandidate : ∀ candidate ∈ candidatePaths locator importer s.baseDirectory s.extensions, _ :=
    fun candidate hmem => exists_of_mem_candidatePaths himporter hbase hmem
  unfold targetOf
  cases hextension : Path.hasExtension locator.toList with
  | false =>
    -- All candidates have names of source files.
    refine .inl (List.find?_congr fun candidate hmem => ?_)
    obtain ⟨p, hp, rfl, hname⟩ := hcandidate candidate hmem
    exact h₀.leadsToFile_eq hp (hname hextension hextensions)
  | true =>
    -- There is a single candidate.
    obtain ⟨candidate, hsingle⟩ : ∃ candidate,
        candidatePaths locator importer s.baseDirectory s.extensions = [candidate] := by
      rw [candidatePaths, locatorSpellings, if_pos hextension]
      exact ⟨_, rfl⟩
    rw [hsingle, List.forall_mem_singleton] at hcandidate
    obtain ⟨p, hp, rfl, -⟩ := hcandidate
    rw [hsingle, List.find?_singleton, List.find?_singleton]
    cases hleads : host.tree.leadsToFile host.folder p.text with
    | true =>
      rw [h₀.leadsToFile_of hp hleads]
      exact .inl rfl
    | false =>
      cases host'.tree.leadsToFile host'.folder p.text with
      | true => exact .inr ⟨rfl, _, rfl, hleads⟩
      | false => exact .inl rfl

/-- What a locator stands for is answered, and logged if it is nothing. -/
theorem Host.Still.resolveLocator_ok (hstill : host.Still h) (hhost : host.IsPlain)
    (locator importer baseDirectory : String) (extensions : List String) :
    ∃ s, resolveLocator locator importer baseDirectory extensions h =
      .ok (targetOf host locator importer baseDirectory extensions) s ∧ host.Still s := by
  unfold resolveLocator
  rw [bind_get, hstill.tree_eq, hstill.folder_eq, ← targetOf]
  -- An import that leads nowhere is recorded, which the tree does not see.
  cases htarget : targetOf host locator importer baseDirectory extensions with
  | some target => exact ⟨h, rfl, hstill⟩
  | none =>
    obtain ⟨s, hlog, hsame, htree, -⟩ := Act.log_of_logFile_eq (hstill.isPlain hhost).logFile_eq
      .debug "scanning.resolver" ("Unresolved local import " ++ locator ++ " from " ++ importer)
    exact ⟨s, by simp only; rw [bind_of_ok _ hlog]; rfl, hstill.trans ⟨hsame, htree⟩⟩

/-- A locator is resolved to the same file, or, where it led to none, to one that is new. -/
theorem follows_resolveLocator (h₀ : host.Regrown s.extensions host')
    (h₁ : host.Abreast host' h h') (htargets : host.SameTargets s host')
    (himporter : (Path.ofText importer).isAbsolute = true) :
    Follows (resolveLocator locator importer s.baseDirectory s.extensions) h
      (resolveLocator locator importer s.baseDirectory s.extensions) h' fun target s target' s' =>
        host.Abreast host' s s' ∧ (target' = target ∨ target = none ∧ ∃ path, target' = some path ∧
          host.tree.leadsToFile host.folder path = false) := by
  intro target t hrun
  obtain ⟨t₁, hrun₁, ht⟩ :=
    h₁.first.resolveLocator_ok h₀.isPlain locator importer s.baseDirectory s.extensions
  obtain ⟨t', hrun', ht'⟩ :=
    h₁.second.resolveLocator_ok h₀.isPlain' locator importer s.baseDirectory s.extensions
  -- The first search ended in its target, so only the two targets are left to compare.
  cases hrun.symm.trans hrun₁
  exact ⟨_, t', hrun', ⟨ht, ht'⟩, htargets locator importer himporter⟩

end Targets

/-! ## Texts -/

/-- The path of a source file leads to it. -/
theorem Tree.HasSource.leadsToFile_eq {path : String} {place : Place}
    (hsource : host.tree.HasSource extensions path place) (hhost : host.IsPlain) (here : Place) :
    host.tree.leadsToFile here path = true := by
  obtain ⟨content, hget⟩ := hsource.exists_file
  rw [hsource.path_eq, Tree.leadsToFile,
    hhost.isClosed.lookup_eq hsource.isProper hsource.isShort hget (by simp) here]

/-- A source file still holds the same text. -/
theorem follows_readSource (h₀ : host.Regrown extensions host') {path : String} {place : Place}
    (hsource : host.tree.HasSource extensions path place) :
    Follows (readSource (.ofText path)) host (readSource (.ofText path)) host'
      fun text s text' s' => text' = text ∧ s = host ∧ s' = host' := by
  obtain ⟨hpath, hnul, hproper, hshort, ⟨content, hget⟩, hname⟩ := hsource
  have htext : (Path.ofText path).text = path := by
    rw [hpath, hproper.isStraight.ofText_text]
  -- No run writes a file that has the name of a source, so it holds what it held.
  have hget' : host'.tree.get? place = some (.file content) := by
    rw [h₀.grown.get?_of_not_written (not_not.2 hname) (by rw [hget]; exact nofun), hget]
  have hlookup := h₀.isPlain.isClosed.lookup_eq hproper hshort hget nofun host.folder
  have hlookup' := h₀.isPlain'.isClosed.lookup_eq hproper hshort hget' nofun host'.folder
  rw [← hpath] at hlookup hlookup'
  have hread := Host.readBytes_eq_ok_iff.2 ⟨hnul, place, content, hlookup, rfl⟩
  have hread' := Host.readBytes_eq_ok_iff.2 ⟨hnul, place, content, hlookup', rfl⟩
  intro text s hrun
  obtain ⟨rfl, bytes, hbytes, rfl⟩ := gives_readSource _ _ hrun
  rw [htext] at hbytes
  cases hread.symm.trans hbytes
  refine ⟨_, host', ?_, rfl, rfl, rfl⟩
  unfold readSource
  rw [htext, bind_of_ok _ (tryCatch_of_ok _ hread')]
  rfl

/-! ## Statements -/

namespace Survey

variable {s : Settings} {c : Classifier} {file : SourceFile}

/-- Two surveys go on side by side: their graphs are the same but for target paths, and all their
files are there. -/
structure Matched (host : Host) (survey survey' : Survey) : Prop where
  alike : survey.graph.Alike survey'.graph
  leadsToFile : ∀ path found, survey.graph.fileAt? path = some found →
    host.tree.leadsToFile host.folder path = true

/-- The kind of a locator does not depend on the host. -/
theorem isStateless_kindOf (s : Settings) (c : Classifier) (locator : String) :
    IsStateless (s.kindOf c locator) := by
  unfold Settings.kindOf
  split
  · exact isStateless_throw _
  · exact isStateless_pure _

/-- Nor does the classifier. -/
theorem isStateless_classifier (s : Settings) : IsStateless s.classifier := by
  unfold Settings.classifier
  refine (isStateless_mapM fun v _ => ?_).bind fun classes => ?_
  · split
    · exact isStateless_pure _
    · exact isStateless_throw _
  · -- After the check of the starts, values are spelled, which is the same in any state.
    have hrest : IsStateless (do
        let folders ← (Value.distinctNames s.libraries).mapM Act.spell
        return ({
          libraries := Value.textsAmong s.libraries
          localStarts := (Value.leadingTexts s.localStarts).1
          folders } : Classifier)) :=
      (isStateless_mapM fun v _ => Act.isStateless_spell v).bind fun _ => isStateless_pure _
    dsimp only
    split
    · exact (isStateless_throw _).bind fun _ => hrest
    · exact hrest

/-- Nothing but the texts of an import is checked. -/
theorem follows_checked {e e' : ImportEdge} (he : e'.withoutPath = e.withoutPath) :
    Follows (Act.ofExcept .edge e.checked) h (Act.ofExcept .edge e'.checked) h'
      fun e₁ s e₁' s' => e₁ = e ∧ e₁' = e' ∧ s = h ∧ s' = h' := by
  have himporter : e'.importerPath = e.importerPath := (congrArg ImportEdge.importerPath he :)
  have hlocator : e'.locator = e.locator := (congrArg ImportEdge.locator he :)
  -- The check reads neither the target nor its path.
  have hfault : e'.fault? = e.fault? := by
    rw [ImportEdge.fault?, ImportEdge.fault?, himporter, hlocator]
  unfold ImportEdge.checked
  rw [hfault]
  cases e.fault? with
  | some fault => exact follows_throw _
  | none => exact follows_pure ⟨rfl, rfl, rfl, rfl⟩

/-- The import that a locator makes is the same but for the target path. -/
theorem follows_edgeOf (h₀ : host.Regrown s.extensions host') (h₁ : host.Abreast host' h h')
    (htargets : host.SameTargets s host')
    (hfile : (Path.ofText file.absolutePath).isAbsolute = true) {survey survey' : Survey}
    (hmatched : Matched host survey survey') (locator : String) :
    Follows (edgeOf s c survey.graph file locator) h (edgeOf s c survey'.graph file locator) h'
      fun e t e' t' => host.Abreast host' t t' ∧ e'.withoutPath = e.withoutPath := by
  unfold edgeOf
  refine (isStateless_kindOf s c locator).follows.bind ?_
  rintro _ _ kind _ ⟨rfl, rfl, rfl⟩
  dsimp only
  split
  · exact follows_pure ⟨h₁, rfl⟩
  · refine (follows_resolveLocator h₀ h₁ htargets hfile).bind ?_
    rintro target t target' t' ⟨h₂, rfl | ⟨rfl, path, rfl, hnot⟩⟩
    · -- The target is the same, and the two graphs have the same file there, or none.
      cases target' with
      | none => exact follows_pure ⟨h₂, rfl⟩
      | some path =>
        dsimp only
        rw [hmatched.alike.fileAt?_eq]
        split
        · exact follows_pure ⟨h₂, rfl⟩
        · refine (h₂.follows_log h₀ _ _ _ _).bind fun _ t _ t' h₃ => ?_
          exact follows_pure ⟨h₃, rfl⟩
    · -- What is there only now is not in the inventory.
      have hnone : survey'.graph.fileAt? path = none := by
        rw [hmatched.alike.fileAt?_eq]
        by_contra hsome
        obtain ⟨found, hfound⟩ := Option.ne_none_iff_exists'.1 hsome
        rw [hmatched.leadsToFile path found hfound] at hnot
        cases hnot
      intro e t₁ hrun
      cases hrun
      obtain ⟨t₂, hlog, hsame, htree, -⟩ :=
        Act.log_of_logFile_eq (h₂.second.isPlain h₀.isPlain').logFile_eq .debug channel
          (file.relativePath ++ ": " ++ locator ++ " resolves outside the inventory")
      let edge : ImportEdge :=
        { importerId := file.id, importerPath := file.relativePath, locator, kind }
      refine ⟨{ edge with targetPath := some path }, t₂, ?_,
        ⟨h₂.first, h₂.second.trans ⟨hsame, htree⟩⟩, rfl⟩
      dsimp only
      rw [hnone]
      exact bind_of_ok _ hlog

/-- A statement is taken into account alike. -/
theorem follows_addStatement (h₀ : host.Regrown s.extensions host')
    (h₁ : host.Abreast host' h h')
    (htargets : host.SameTargets s host')
    (hfile : (Path.ofText file.absolutePath).isAbsolute = true) {survey survey' : Survey}
    (hmatched : Matched host survey survey') (statement : List Char) :
    Follows (addStatement s c file survey statement) h (addStatement s c file survey' statement) h'
      fun v t v' t' => host.Abreast host' t t' ∧ Matched host v v' := by
  unfold addStatement
  cases ImportAtlas.locator statement with
  | error fault =>
    refine (h₁.follows_log h₀ _ _ _ _).bind fun _ t _ t' h₂ => ?_
    exact follows_pure ⟨h₂, hmatched.alike, hmatched.leadsToFile⟩
  | ok found =>
    refine (follows_edgeOf h₀ h₁ htargets hfile hmatched (String.ofList found)).bind ?_
    rintro e t e' t' ⟨h₂, he⟩
    refine (follows_checked he).bind ?_
    rintro _ _ _ _ ⟨rfl, rfl, rfl, rfl⟩
    -- Both graphs take the import or both refuse it, and for the same reason.
    rcases ImportGraph.insertImport_alike hmatched.alike he with
      ⟨hinsert, hinsert'⟩ | ⟨fault, hinsert, hinsert'⟩
    · rw [hinsert, hinsert']
      exact follows_pure ⟨h₂, hmatched.alike.withEdge he, hmatched.leadsToFile⟩
    · rw [hinsert, hinsert']
      cases fault with
      | duplicateImport importer locator =>
        refine (h₂.follows_log h₀ _ _ _ _).bind fun _ t₁ _ t₁' h₃ => ?_
        exact follows_pure ⟨h₃, hmatched.alike, hmatched.leadsToFile⟩
      | duplicateFile path => exact follows_throw _
      | unknownFile id importer locator => exact follows_throw _

/-! ## Files -/

/-- The imports of a file are added alike, as long as it reads the same. -/
theorem follows_addFile (h₀ : host.Regrown s.extensions host')
    (h₁ : host.Abreast host' h h')
    (htargets : host.SameTargets s host') {place : Place}
    (hsource : host.tree.HasSource s.extensions file.absolutePath place) {survey survey' : Survey}
    (hmatched : Matched host survey survey') :
    Follows (addFile s c survey file) h (addFile s c survey' file) h'
      fun v t v' t' => host.Abreast host' t t' ∧ Matched host v v' := by
  -- The path is the text of a place, so it begins with a slash.
  have hfile : (Path.ofText file.absolutePath).isAbsolute = true := by
    rw [hsource.path_eq, hsource.isProper.isStraight.ofText_text]
    rfl
  unfold addFile
  refine (follows_readSource (h₀.abreast h₁) (h₁.first.tree_eq ▸ hsource)).bind ?_
  rintro text _ _ _ ⟨rfl, rfl, rfl⟩
  exact follows_foldlM (fun statement _ v t v' t' h => follows_addStatement h₀ h.1 htargets
    hfile h.2 statement) ⟨h₁, hmatched⟩

/-- If all files could be read, all can be read again. -/
theorem follows_addFiles (h₀ : host.Regrown s.extensions host')
    (htargets : host.SameTargets s host') {files : List SourceFile}
    (hsources : ∀ f ∈ files, ∃ place, host.tree.HasSource s.extensions f.absolutePath place)
    (h₁ : host.Abreast host' h h') {survey survey' : Survey}
    (hmatched : Matched host survey survey') {v : Survey} {t : Host}
    (hrun : addFiles s c survey files h = .ok (v, none) t) :
    ∃ v' t', addFiles s c survey' files h' = .ok (v', none) t' ∧ host.Abreast host' t t' ∧
      Matched host v v' := by
  induction files generalizing h h' survey survey' with
  | nil =>
    cases hrun
    exact ⟨survey', h', rfl, h₁, hmatched⟩
  | cons file files ih =>
    simp only [List.mem_cons, forall_eq_or_imp] at hsources
    obtain ⟨⟨place, hsource⟩, hsources⟩ := hsources
    unfold addFiles at hrun ⊢
    obtain ⟨next, t₁, hnext, hrest⟩ := bind_eq_ok_iff.1 hrun
    cases next with
    | error e => cases hrest
    | ok survey₁ =>
      -- The first run read this file to its end, so the second one does.
      have hfile := attempt_eq_ok_iff.1 hnext
      obtain ⟨survey₁', t₁', hfile', h₂, hmatched₁⟩ :=
        follows_addFile h₀ h₁ htargets hsource hmatched _ _ hfile
      rw [bind_of_ok _ (attempt_eq_ok_iff.2 hfile')]
      exact ih hsources h₂ hmatched₁ hrest

/-! ## The graph -/

/-- A path is added alike from the same working folder. -/
theorem follows_addPath (hfolder : h'.folder = h.folder) (g : ImportGraph) (path : String) :
    Follows (addPath s g path) h (addPath s g path) h'
      fun g₁ t g₁' t' => g₁' = g₁ ∧ t = h ∧ t' = h' := by
  have hsource : Follows (sourceOf s path) h (sourceOf s path) h'
      fun f t f' t' => f' = f ∧ t = h ∧ t' = h' := by
    unfold sourceOf
    split
    · exact follows_throw _
    · -- The relative path is told from the working folder, which both hosts share.
      have hworking : Follows Act.workingPath h Act.workingPath h'
          fun p t p' t' => p' = p ∧ t = h ∧ t' = h' := by
        rintro _ _ ⟨⟩
        exact ⟨_, h', Act.workingPath_eq h', by rw [hfolder], rfl, rfl⟩
      refine hworking.bind ?_
      rintro _ _ p _ ⟨rfl, rfl, rfl⟩
      dsimp only
      split
      · exact follows_pure ⟨rfl, rfl, rfl⟩
      · exact follows_throw _
  unfold addPath
  refine hsource.bind ?_
  rintro _ _ f _ ⟨rfl, rfl, rfl⟩
  refine (Act.isStateless_ofExcept _ _).follows.bind ?_
  rintro _ _ added _ ⟨rfl, rfl, rfl⟩
  exact follows_pure ⟨rfl, rfl, rfl⟩

/-- So are all paths. -/
theorem follows_addPaths (hfolder : h'.folder = h.folder) (paths : List String) :
    Follows (paths.foldlM (addPath s) .empty) h (paths.foldlM (addPath s) .empty) h'
      fun g t g' t' => g' = g ∧ t = h ∧ t' = h' := by
  refine follows_foldlM (fun path _ g t g' t' hsame => ?_) ⟨rfl, rfl, rfl⟩
  obtain ⟨rfl, rfl, rfl⟩ := hsame
  exact follows_addPath hfolder _ path

/-- What a survey has found it finds again. -/
theorem follows_ofPaths (h₀ : host.Regrown s.extensions host') (h₁ : host.Abreast host' h h')
    (htargets : host.SameTargets s host') {paths : List String}
    (hsources : ∀ path ∈ paths, ∃ place, host.tree.HasSource s.extensions path place)
    {v : Survey} {t : Host} (hrun : ofPaths s c paths h = .ok (v, none) t) :
    ∃ v' t', ofPaths s c paths h' = .ok (v', none) t' ∧ host.Abreast host' t t' ∧
      Matched host v v' := by
  have hfolder := (h₀.abreast h₁).folder_eq
  unfold ofPaths at hrun ⊢
  obtain ⟨placed, t₁, hplaced, hrest⟩ := bind_eq_ok_iff.1 hrun
  cases placed with
  | error e => cases hrest
  | ok g =>
    have hadd := attempt_eq_ok_iff.1 hplaced
    obtain ⟨g', _, hadd', hsame, rfl, rfl⟩ := follows_addPaths hfolder paths _ _ hadd
    rw [hsame] at hadd'
    rw [bind_of_ok _ (attempt_eq_ok_iff.2 hadd')]
    -- The files of the graph are those of the inventory.
    obtain ⟨-, hg, hfiles, -⟩ := gives_addPaths [] paths ImportGraph.consistent_empty rfl _ _ hadd
    have hlisted : ∀ f ∈ g.files, f.absolutePath ∈ paths := by
      intro f hf
      rw [hfiles, List.nil_append] at hf
      rw [← paths_filesOf (s := s) t₁.folder paths]
      exact List.mem_map.2 ⟨f, hf, rfl⟩
    have hmatched : Matched host { graph := g } { graph := g } := by
      refine ⟨.refl g, fun path found hfound => ?_⟩
      obtain ⟨hf, rfl⟩ := hg.fileAt?_eq_some_iff.1 hfound
      obtain ⟨place, hsource⟩ := hsources _ (hlisted found hf)
      exact hsource.leadsToFile_eq h₀.isPlain host.folder
    obtain ⟨result, t₂, hfilesRun, hlast⟩ := bind_eq_ok_iff.1 hrest
    obtain ⟨survey, stopped⟩ := result
    cases stopped with
    | some e => cases hlast
    | none =>
      -- The first survey was not stopped, so the second one is not.
      obtain ⟨survey', t₂', hfilesRun', h₂, hmatched₂⟩ :=
        follows_addFiles h₀ htargets (fun f hf => hsources _ (hlisted f hf)) h₁ hmatched
          hfilesRun
      dsimp only
      rw [bind_of_ok _ hfilesRun']
      simp only [Option.isNone_none, ↓reduceIte] at hlast ⊢
      obtain ⟨_, t₃, hlogged, hdone⟩ := bind_eq_ok_iff.1 hlast
      obtain ⟨_, t₃', hlogged', h₃⟩ := h₂.follows_log h₀ _ _ _ _ _ _ hlogged
      cases hdone
      exact ⟨survey', t₃', bind_of_ok _ hlogged', h₃, hmatched₂⟩

end Survey

/-- The graph is built again, and is the same but for target paths. -/
theorem follows_buildGraph {s : Settings} (h₀ : host.Regrown s.extensions host')
    (h₁ : host.Abreast host' h h')
    (htargets : host.SameTargets s host') {paths : List String}
    (hsources : ∀ path ∈ paths, ∃ place, host.tree.HasSource s.extensions path place) :
    Follows (buildGraph s paths) h (buildGraph s paths) h' fun g t g' t' =>
      host.Abreast host' t t' ∧ g.Alike g' := by
  unfold buildGraph
  refine (Survey.isStateless_classifier s).follows.bind ?_
  rintro _ _ c _ ⟨rfl, rfl, rfl⟩
  -- The first run returned a graph, so its survey was not stopped, and neither is the second.
  intro g t hrun
  obtain ⟨⟨survey, stopped⟩, t₁, hsurvey, hlast⟩ := bind_eq_ok_iff.1 hrun
  cases stopped with
  | some e => cases hlast
  | none =>
    cases hlast
    obtain ⟨survey', t₁', hsurvey', h₂, hmatched⟩ :=
      Survey.follows_ofPaths h₀ h₁ htargets hsources hsurvey
    exact ⟨survey'.graph, t₁', bind_of_ok _ hsurvey', h₂, hmatched.alike⟩

end

end ImportAtlas
