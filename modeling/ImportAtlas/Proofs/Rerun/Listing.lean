import ImportAtlas.Proofs.Import.Candidate
import ImportAtlas.Proofs.Inventory.Verdict
import ImportAtlas.Proofs.Writing

/-!
# Listing again

A tree without links has grown by folders and by files whose names are no names of sources. Walking
it again lists the same files: a folder is no file, and a new file has none of the extensions.

## Key results

- `Inventory.follows_verdict`: what becomes of an entry that was there is the same as before
- `Inventory.follows_list`: the inventory is the same
-/

namespace ImportAtlas

open EStateM

/-- A path is that of a source file: it leads to a file, whose name is one of source files. -/
structure Tree.HasSource (t : Tree Content) (extensions : List String) (path : String)
    (place : Place) : Prop where
  path_eq : path = (Path.ofPlace place).text
  hasNul_eq : Act.hasNul path = false
  isProper : place.IsProper
  isShort : place.IsShort
  exists_file : ∃ content, t.get? place = some (.file content)
  isSourceName : IsSourceName extensions (Path.ofPlace place).name

/-- Files may be written at a place: its name is not that of a source file. -/
def IsOutputPlace (extensions : List String) (place : Place) : Prop :=
  ¬ IsSourceName extensions (Path.ofPlace place).name

namespace Host

/-- Nothing has changed but for the records of the log and the connection. -/
structure Still (host host' : Host) : Prop extends host.SameOutside host' where
  tree_eq : host'.tree = host.tree

/-- The tree of a host has grown, and no file was written where a source file may be. -/
structure Regrown (extensions : List String) (host host' : Host) : Prop where
  isPlain : host.IsPlain
  isPlain' : host'.IsPlain
  folder_eq : host'.folder = host.folder
  grown : Tree.Grown (IsOutputPlace extensions) host.tree host'.tree

/-- Two runs go on side by side, and neither has changed its tree so far. -/
structure Abreast (host host' h h' : Host) : Prop where
  first : host.Still h
  second : host'.Still h'

variable {host host' host'' h h' : Host} {extensions : List String}

theorem Still.refl (host : Host) : host.Still host :=
  ⟨.refl host, rfl⟩

theorem Still.trans (h : host.Still host') (h' : host'.Still host'') : host.Still host'' :=
  ⟨h.toSameOutside.trans h'.toSameOutside, h'.tree_eq.trans h.tree_eq⟩

theorem Still.isPlain (h : host.Still host') (hhost : host.IsPlain) : host'.IsPlain :=
  ⟨h.folder_eq ▸ hhost.folder, h.tree_eq ▸ hhost.isPlain, h.tree_eq ▸ hhost.isClosed,
    h.tree_eq ▸ hhost.isProper, h.logFile_eq.trans hhost.logFile_eq⟩

theorem Still.gives_log (h : host.Still host') (hhost : host.IsPlain) (level : LogLevel)
    (channel message : String) :
    Gives (Act.log level channel message) host' fun _ host'' => host.Still host'' := by
  intro u host'' hlog
  obtain ⟨host₁, hlog₁, hsame, htree, -⟩ :=
    Act.log_of_logFile_eq (h.isPlain hhost).logFile_eq level channel message
  cases hlog.symm.trans hlog₁
  exact h.trans ⟨hsame, htree⟩

/-- A tree has grown from the one that it is. -/
theorem Regrown.refl (hhost : host.IsPlain) : host.Regrown extensions host :=
  ⟨hhost, hhost, rfl, .refl hhost.isPlain hhost.isClosed⟩

/-- While two runs go on side by side, one tree has still grown from the other. -/
theorem Regrown.abreast (h₀ : host.Regrown extensions host') (h₁ : host.Abreast host' h h') :
    h.Regrown extensions h' where
  isPlain := h₁.first.isPlain h₀.isPlain
  isPlain' := h₁.second.isPlain h₀.isPlain'
  folder_eq := by rw [h₁.second.folder_eq, h₁.first.folder_eq, h₀.folder_eq]
  grown := by
    rw [h₁.first.tree_eq, h₁.second.tree_eq]
    exact h₀.grown

/-- Both runs log something, which need not be the same. -/
theorem Abreast.follows_log (h₁ : host.Abreast host' h h') (h₀ : host.Regrown extensions host')
    (level : LogLevel) (channel message message' : String) :
    Follows (Act.log level channel message) h (Act.log level channel message') h'
      fun _ h _ h' => host.Abreast host' h h' := by
  intro u h₂ hlog
  -- The second run logs to the same file, if to any.
  obtain ⟨h₂', hlog', hsame, htree, -⟩ :=
    Act.log_of_logFile_eq (h₁.second.isPlain h₀.isPlain').logFile_eq level channel message'
  exact ⟨(), h₂', hlog', h₁.first.gives_log h₀.isPlain _ _ _ _ _ hlog,
    h₁.second.trans ⟨hsame, htree⟩⟩

end Host

section

variable {host host' h h' : Host} {extensions : List String} {patterns : List Value} {root : Path}
  {place : Place}

/-- Whether a file stands at a place is answered as before, if anything stood there. -/
theorem Host.Regrown.follows_isFile (h₀ : host.Regrown extensions host') {entry : Entry Content}
    (hget : host.tree.get? place = some entry) :
    Follows (Act.isFile (Path.ofPlace place).text) host (Act.isFile (Path.ofPlace place).text) host'
      fun b s b' s' => b' = b ∧ s = host ∧ s' = host' ∧ (b = true →
        Act.hasNul (Path.ofPlace place).text = false ∧ place.IsShort ∧
          ∃ content, entry = .file content) := by
  have hproper := h₀.isPlain.isProper place entry hget
  intro b s hfile
  cases hnul : Act.hasNul (Path.ofPlace place).text with
  | true =>
    rw [Act.isFile_of_hasNul hnul] at hfile
    cases hfile
    exact ⟨false, host', Act.isFile_of_hasNul hnul, rfl, rfl, rfl, nofun⟩
  | false =>
    by_cases hshort : place.IsShort
    · -- The path leads to what stands there, in both trees.
      obtain ⟨entry', hget', hkind⟩ := h₀.grown.isFile_eq h₀.isPlain.isPlain hget
      have hlink : ∀ target, entry ≠ .link target := by
        rintro target rfl
        exact h₀.isPlain.isPlain.ne_link _ _ hget
      have hlink' : ∀ target, entry' ≠ .link target := by
        rintro target rfl
        exact h₀.isPlain'.isPlain.ne_link _ _ hget'
      have hlookup := h₀.isPlain.isClosed.lookup_eq hproper hshort hget hlink host.folder
      have hlookup' := h₀.isPlain'.isClosed.lookup_eq hproper hshort hget' hlink' host'.folder
      rw [Act.isFile_of_lookup hnul hlookup] at hfile
      cases hfile
      refine ⟨_, _, Act.isFile_of_lookup hnul hlookup', hkind, rfl, rfl, fun hb => ?_⟩
      cases entry with
      | file content => exact ⟨rfl, hshort, content, rfl⟩
      | folder => cases hb
      | link target => exact absurd rfl (hlink target)
    · -- A path that is too long stops the question.
      have hlookup := h₀.isPlain.isClosed.lookup_eq_longName hproper (by rw [hget]; exact nofun)
        hshort host.folder
      have hprobe : Act.probe (Path.ofPlace place).text host =
          .error (.access .longName (Path.ofPlace place).text) host := by
        unfold Act.probe
        rw [hnul, if_neg Bool.false_ne_true, bind_get, hlookup]
        rfl
      unfold Act.isFile at hfile
      rw [bind_of_error _ hprobe] at hfile
      cases hfile

namespace Inventory

/-! ## Single entries -/

/-- What has one of the extensions has the name of a source file. -/
theorem isSourceName_of_hasExtension {p : Path} (h : hasExtension extensions p = true) :
    IsSourceName extensions p.name := by
  obtain ⟨e, he, hsuffix⟩ := List.any_eq_true.1 h
  refine ⟨e, he, ?_⟩
  rw [← beq_iff_eq.1 hsuffix, Path.suffix, String.toList_ofList]
  exact Path.suffixOf_isSuffix _

/-- What becomes of an entry that was there is the same as before. -/
theorem follows_verdict (h₀ : host.Regrown extensions host') {entry : Entry Content}
    (hget : host.tree.get? place = some entry) :
    Follows (verdict extensions patterns root (.ofPlace place)) host
      (verdict extensions patterns root (.ofPlace place)) host' fun v s v' s' =>
        v' = v ∧ s = host ∧ s' = host' ∧
          (v = .kept → host.tree.HasSource extensions (Path.ofPlace place).text place) := by
  unfold verdict
  cases hextension : hasExtension extensions (.ofPlace place) with
  | false => exact follows_pure ⟨rfl, rfl, rfl, nofun⟩
  | true =>
    simp only [Bool.not_true, Bool.false_eq_true, ↓reduceIte]
    refine (h₀.follows_isFile hget).bind ?_
    rintro _ _ b _ ⟨rfl, rfl, rfl, hfile⟩
    cases b with
    | false => exact follows_pure ⟨rfl, rfl, rfl, nofun⟩
    | true =>
      -- Both hosts hold a file here, with the same outline though perhaps not the same bytes.
      obtain ⟨hnul, hshort, content, rfl⟩ := hfile rfl
      simp only [Bool.not_true, Bool.false_eq_true, ↓reduceIte]
      refine (isStateless_isExcluded patterns root (.ofPlace place)).follows.bind ?_
      rintro excluded _ _ _ ⟨rfl, rfl, rfl⟩
      split
      · exact follows_pure ⟨rfl, rfl, rfl, nofun⟩
      · exact follows_pure ⟨rfl, rfl, rfl, fun _ => ⟨rfl, hnul, h₀.isPlain.isProper _ _ hget,
          hshort, ⟨content, hget⟩, isSourceName_of_hasExtension hextension⟩⟩

/-- What is new is passed: it is a folder, or a file with another name. -/
theorem verdict_of_new (h₀ : host.Regrown extensions host') (hfree : host.tree.get? place = none)
    (hget : host'.tree.get? place ≠ none) :
    verdict extensions patterns root (.ofPlace place) host' = .ok .passed host' := by
  unfold verdict
  cases hextension : hasExtension extensions (.ofPlace place) with
  | false => rfl
  | true =>
    simp only [Bool.not_true, Bool.false_eq_true, ↓reduceIte]
    suffices hfile : Act.isFile (Path.ofPlace place).text host' = .ok false host' by
      rw [bind_of_ok _ hfile]
      rfl
    rcases h₀.grown.get?_cases place with hsame | ⟨-, hfolder, hproper, hshort⟩ | ⟨houtput, -⟩
    · exact absurd (hsame.trans hfree) hget
    · cases hnul : Act.hasNul (Path.ofPlace place).text with
      | true => exact Act.isFile_of_hasNul hnul
      | false =>
        have hlookup := h₀.isPlain'.isClosed.lookup_eq hproper hshort hfolder nofun host'.folder
        exact Act.isFile_of_lookup hnul hlookup
    · -- An output file has no name that the walk looks for.
      exact absurd (isSourceName_of_hasExtension hextension) houtput

/-! ## Directories -/

/-- A directory is found again. -/
theorem follows_startingAt (h₀ : host.Regrown extensions host') (directory : String) :
    Follows (startingAt directory) host (startingAt directory) host' fun root s root' s' =>
      root' = root ∧ s = host ∧ s' = host' ∧ ∃ place, root = .ofPlace place ∧
        host.tree.lookup host.folder root.text = .ok (place, .folder) ∧
        host'.tree.lookup host'.folder root.text = .ok (place, .folder) := by
  intro root s hrun
  obtain ⟨rfl, hresolve, hnul, place, hlookup⟩ := gives_startingAt_resolve _ _ _ hrun
  obtain ⟨-, hcanonical⟩ := Act.gives_resolve_canonical? _ _ hresolve
  have hstraight := (Act.gives_resolve h₀.isPlain.folder _ _ _ hresolve).1
  -- Without links the directory is made canonical by its names alone.
  obtain ⟨hsame, hplace⟩ :=
    h₀.isPlain.isPlain.canonical?_eq h₀.isPlain'.isPlain s.folder (Path.ofText directory).text
  obtain ⟨place', rfl⟩ := hplace _ hcanonical
  have hwhere :=
    ((h₀.isPlain.isPlain.lookup_eq_ok_iff h₀.isPlain.isClosed hstraight.isGrounded).1
      hlookup).2.2.1
  rw [hstraight.place_eq] at hwhere
  obtain rfl : place = place' := hwhere
  have hlookup' : host'.tree.lookup host'.folder (Path.ofPlace place).text =
      .ok (place, .folder) := by
    rw [h₀.folder_eq]
    exact h₀.grown.lookup_folder h₀.isPlain.isPlain h₀.isPlain.isClosed hstraight.isGrounded hlookup
  have hcanonical' : host'.tree.canonical? host'.folder (Path.ofText directory).text =
      some (.ofPlace place) := by
    rw [h₀.folder_eq, hsame, hcanonical]
  exact ⟨.ofPlace place, host', startingAt_of_lookup hcanonical' hnul hlookup', rfl, rfl, rfl,
    place, rfl, hlookup, hlookup'⟩

/-- The paths that are walked through are those of the places behind the root where something
stands. -/
theorem exists_mem_entriesBelow_ofPlace_iff {t : Tree Content} {here : Place} {p : Path}
    (hlookup : t.lookup here (Path.ofPlace place).text = .ok (place, .folder)) :
    (∃ e ∈ entriesBelow t here (.ofPlace place), e.1 = p) ↔
      ∃ k, p = .ofPlace k ∧ place <+: k ∧ k ≠ place ∧ t.get? k ≠ none := by
  -- What is below a place has its names in front of others.
  rw [exists_mem_entriesBelow_iff hlookup]
  constructor
  · rintro ⟨names, hne, rfl, hget⟩
    exact ⟨place ++ names, rfl, List.prefix_append _ _, by simpa using hne, hget⟩
  · rintro ⟨_, rfl, ⟨names, rfl⟩, hne, hget⟩
    exact ⟨names, by simpa using hne, rfl, hget⟩

/-- Where there are no links, an entry is looked at by its path alone. -/
theorem examine_eq_verdict {t : Tree Content} {here : Place} {start : Path} (hplain : t.IsPlain)
    {e : Path × Entry Content} (he : e ∈ entriesBelow t here start) :
    examine extensions patterns root e = verdict extensions patterns root e.1 := by
  unfold entriesBelow at he
  split at he
  · obtain ⟨⟨k, entry⟩, hk, rfl⟩ := List.mem_map.1 he
    cases entry with
    -- A link would be looked through first, but there are none.
    | link target => exact absurd rfl (hplain _ (List.mem_filter.1 hk).1 target)
    | file content => rfl
    | folder => rfl
  · cases he

section Entries

variable (h₀ : host.Regrown extensions host')
  (hlookup : host.tree.lookup host.folder (Path.ofPlace place).text = .ok (place, .folder))
include h₀ hlookup

/-- What was looked at before meets the same end now. -/
theorem verdict_again {e : Path × Entry Content} {v : Verdict} {s : Host}
    (he : e ∈ entriesBelow host.tree host.folder (.ofPlace place))
    (hverdict : verdict extensions patterns root e.1 host = .ok v s) :
    verdict extensions patterns root e.1 host' = .ok v host' ∧
      (v = .kept → host.tree.HasSource extensions e.1.text e.1.names) := by
  obtain ⟨k, hk, -, -, hget⟩ := (exists_mem_entriesBelow_ofPlace_iff hlookup).1 ⟨e, he, rfl⟩
  obtain ⟨entry, hget⟩ := Option.ne_none_iff_exists'.1 hget
  rw [hk] at hverdict ⊢
  -- The entry is there as before, so the same is found about it.
  obtain ⟨v', s', hverdict', rfl, -, rfl, hsource⟩ := follows_verdict h₀ hget v s hverdict
  exact ⟨hverdict', hsource⟩

variable (hlookup' : host'.tree.lookup host'.folder (Path.ofPlace place).text =
  .ok (place, .folder))
include hlookup'

/-- What was there before is there now. -/
theorem exists_mem_entriesBelow_again {e : Path × Entry Content}
    (he : e ∈ entriesBelow host.tree host.folder (.ofPlace place)) :
    ∃ e' ∈ entriesBelow host'.tree host'.folder (.ofPlace place), e'.1 = e.1 := by
  obtain ⟨k, hk, hprefix, hne, hget⟩ :=
    (exists_mem_entriesBelow_ofPlace_iff hlookup).1 ⟨e, he, rfl⟩
  obtain ⟨entry, hget⟩ := Option.ne_none_iff_exists'.1 hget
  -- Nothing is taken away between the runs.
  obtain ⟨entry', hget', -⟩ := h₀.grown.isFile_eq h₀.isPlain.isPlain hget
  refine (exists_mem_entriesBelow_ofPlace_iff hlookup').2 ⟨k, hk, hprefix, hne, ?_⟩
  rw [hget']
  exact nofun

/-- What is there now was there before, or is passed. -/
theorem mem_entriesBelow_or_passed {e : Path × Entry Content}
    (he : e ∈ entriesBelow host'.tree host'.folder (.ofPlace place)) :
    (∃ e₀ ∈ entriesBelow host.tree host.folder (.ofPlace place), e₀.1 = e.1) ∨
      verdict extensions patterns root e.1 host' = .ok .passed host' := by
  obtain ⟨k, hk, hprefix, hne, hget⟩ :=
    (exists_mem_entriesBelow_ofPlace_iff hlookup').1 ⟨e, he, rfl⟩
  rw [hk]
  -- What is new has been written by the first run, and is no source file.
  by_cases hfree : host.tree.get? k = none
  · exact .inr (verdict_of_new h₀ hfree hget)
  · exact .inl ((exists_mem_entriesBelow_ofPlace_iff hlookup).2 ⟨k, rfl, hprefix, hne, hfree⟩)

/-- The walk through all entries keeps the same files. -/
theorem follows_visits :
    Follows ((entriesBelow host.tree host.folder (.ofPlace place)).foldlM
        (visit extensions patterns root) {}) host
      ((entriesBelow host'.tree host'.folder (.ofPlace place)).foldlM
        (visit extensions patterns root) {}) host' fun found s found' s' =>
      s = host ∧ s' = host' ∧ (∀ path, path ∈ found'.files ↔ path ∈ found.files) ∧
        ∀ path ∈ found.files, ∃ place, host.tree.HasSource extensions path place := by
  intro found s hrun
  obtain ⟨rfl, hexamined, hfiles⟩ := gives_visits _ _ hrun
  have hold : ∀ e ∈ entriesBelow s.tree s.folder (.ofPlace place), ∃ v,
      verdict extensions patterns root e.1 s = .ok v s := by
    intro e he
    obtain ⟨v, hverdict⟩ := hexamined e he
    exact ⟨v, (gives_examine e v s hverdict).2⟩
  -- Each entry of the second tree was there before or is passed, so none stops the walk.
  have hexamined' : ∀ e ∈ entriesBelow host'.tree host'.folder (.ofPlace place), ∃ v,
      examine extensions patterns root e host' = .ok v host' := by
    intro e he
    rw [examine_eq_verdict h₀.isPlain'.isPlain he]
    rcases mem_entriesBelow_or_passed h₀ hlookup hlookup' he with ⟨e₀, he₀, heq⟩ | hpassed
    · obtain ⟨v, hverdict⟩ := hold e₀ he₀
      exact ⟨v, heq ▸ (verdict_again h₀ hlookup he₀ hverdict).1⟩
    · exact ⟨.passed, hpassed⟩
  obtain ⟨found', hrun'⟩ := visits_of_examined {} hexamined'
  obtain ⟨-, -, hfiles'⟩ := gives_visits _ _ hrun'
  refine ⟨found', host', hrun', rfl, rfl, fun path => ?_, fun path hpath => ?_⟩
  · -- What is kept of an entry that was there is the same, and what is new is passed.
    rw [hfiles', hfiles]
    refine or_congr_right ⟨?_, ?_⟩
    · rintro ⟨e, he, hverdict', rfl⟩
      rcases mem_entriesBelow_or_passed h₀ hlookup hlookup' he with ⟨e₀, he₀, heq⟩ | hpassed
      · obtain ⟨v, hverdict⟩ := hold e₀ he₀
        have hagain := (verdict_again h₀ hlookup he₀ hverdict).1
        rw [heq, hverdict'] at hagain
        cases hagain
        exact ⟨e₀, he₀, hverdict, by rw [heq]⟩
      · rw [hverdict'] at hpassed
        cases hpassed
    · rintro ⟨e, he, hverdict, rfl⟩
      obtain ⟨e', he', heq⟩ := exists_mem_entriesBelow_again h₀ hlookup hlookup' he
      exact ⟨e', he', heq ▸ (verdict_again h₀ hlookup he hverdict).1, by rw [heq]⟩
  · rcases (hfiles path).1 hpath with hpath | ⟨e, he, hverdict, rfl⟩
    · cases hpath
    · exact ⟨_, (verdict_again h₀ hlookup he hverdict).2 rfl⟩

end Entries

/-- The same files are listed of a directory, if not in the same order. -/
theorem follows_walk (h₀ : host.Regrown extensions host') (h₁ : host.Abreast host' h h')
    (directory : String) :
    Follows (walk directory extensions patterns) h (walk directory extensions patterns) h'
      fun files s files' s' => host.Abreast host' s s' ∧
        (∀ path, path ∈ files' ↔ path ∈ files) ∧
        ∀ path ∈ files, ∃ place, host.tree.HasSource extensions path place := by
  have h₂ := h₀.abreast h₁
  unfold walk
  refine (follows_startingAt h₂ directory).bind ?_
  rintro root _ _ _ ⟨rfl, rfl, rfl, place, rfl, hlookup, hlookup'⟩
  refine follows_get.bind ?_
  rintro _ _ _ _ ⟨rfl, rfl, rfl, rfl⟩
  refine (follows_visits h₂ hlookup hlookup').bind ?_
  rintro found _ found' _ ⟨rfl, rfl, hsame, hsources⟩
  refine (h₁.follows_log h₀ _ _ _ _).bind fun _ s _ s' hlogged => ?_
  refine follows_pure ⟨hlogged, hsame, fun path hpath => ?_⟩
  -- The log has grown since the first host, the tree has not.
  rw [← h₁.first.tree_eq]
  exact hsources path hpath

/-! ## The inventory -/

/-- What is listed is the same again, and consists of source files. -/
theorem follows_list {r : Request} (htracked : r.trackedOnly = false)
    (h₀ : host.Regrown r.extensions host') (h₁ : host.Abreast host' h h') :
    Follows (list r) h (list r) h' fun paths s paths' s' => host.Abreast host' s s' ∧
      paths' = paths ∧ ∀ path ∈ paths, ∃ place, host.tree.HasSource r.extensions path place := by
  have hdirectories : Follows (r.directories.mapM fun directory =>
      if r.trackedOnly then listTracked directory r.extensions r.timeout
      else walk directory r.extensions r.excludePatterns) h (r.directories.mapM fun directory =>
      if r.trackedOnly then listTracked directory r.extensions r.timeout
      else walk directory r.extensions r.excludePatterns) h' fun found s found' s' =>
        host.Abreast host' s s' ∧ List.Forall₂ (fun files files' =>
          (∀ path, path ∈ files' ↔ path ∈ files) ∧
          ∀ path ∈ files, ∃ place, host.tree.HasSource r.extensions path place) found found' := by
    refine follows_mapM (fun directory _ s s' hs => ?_) h₁
    simp only [htracked, Bool.false_eq_true, ↓reduceIte]
    exact follows_walk h₀ hs directory
  unfold list
  refine hdirectories.bind fun found s found' s' hfound => ?_
  obtain ⟨hs, hfound⟩ := hfound
  refine (hs.follows_log h₀ _ _ _ _).bind fun _ s₁ _ s₁' hlogged => ?_
  refine follows_pure ⟨hlogged, sorted_eq_of_mem_iff fun path => ?_, fun path hpath => ?_⟩
  · -- The lists are sorted in the end, so it is enough that they have the same members.
    induction hfound with
    | nil => rfl
    | cons hfiles _ ih => simp only [List.flatten_cons, List.mem_append, hfiles.1, ih]
  · have hmem := List.mem_eraseDups.1 ((List.mergeSort_perm _ _).mem_iff.1 hpath)
    clear hpath
    induction hfound with
    | nil => cases hmem
    | cons hfiles _ ih =>
      rw [List.flatten_cons, List.mem_append] at hmem
      exact hmem.elim (hfiles.2 path) ih

end Inventory

end

end ImportAtlas
