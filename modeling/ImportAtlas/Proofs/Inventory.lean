import ImportAtlas.Inventory
import ImportAtlas.Proofs.Host
import ImportAtlas.Proofs.List
import ImportAtlas.Proofs.Log

/-!
# What an inventory lists

Whether files are found by walking or named by version control, each of them is asked for before it
is listed, and its path goes on from a canonical directory. So what is listed are straight paths
of files, none of them twice.

## Key results

- `Inventory.gives_walk`, `Inventory.gives_listTracked`: what is listed of one directory
- `Inventory.gives_list`: what is listed of all directories, and that only the log has changed
-/

namespace ImportAtlas

/-- The entries of a tree have names that entries can have. -/
def Tree.IsProper {α : Type} (t : Tree α) : Prop :=
  ∀ place entry, t.get? place = some entry → place.IsProper

/-- Every name in the output of version control is that of a file below the directory asked for: it
is relative and never goes up. -/
def Reply.NamesBelow : Reply → Prop
  | finished status output _ => status = 0 → ∀ piece ∈ output.toList.splitOn '\x00',
    (Path.ofText (String.ofList piece)).isAbsolute = false ∧
      ".." ∉ (Path.ofText (String.ofList piece)).names
  | notFound => True
  | timedOut => True

/-- The names that lead to entries of the tree and to the working directory are such as entries can
have, and the log file is there if there is one. -/
structure Host.IsProper (host : Host) : Prop where
  folder : host.folder.IsProper
  tree : host.tree.IsProper
  hasLogFile : host.HasLogFile

/-- A path as an inventory lists it: it is straight and leads to a file. -/
structure IsListed (host : Host) (path : String) : Prop where
  exists_straight : ∃ p : Path, p.IsStraight ∧ path = p.text
  hasNul_eq : Act.hasNul path = false
  leadsToFile : host.tree.leadsToFile host.folder path = true

/-- A host while files are listed: the log has grown, and some answers are used up. -/
structure Host.Listing (host host' : Host) : Prop where
  logged : host.Logged host'
  replies : ∀ reply ∈ host'.replies, reply ∈ host.replies

namespace Tree.IsProper

variable {α : Type} {t t' : Tree α}

/-- The names of a tree are seen from its outline. -/
theorem of_sameOutline (h : t.IsProper) (ht : t.SameOutline t') : t'.IsProper := by
  intro place entry hget
  cases hplace : t.get? place with
  | none =>
    rw [ht.get?_eq_none hplace] at hget
    cases hget
  | some entry' => exact h place entry' hplace

end Tree.IsProper

/-- It is enough to look at the entries as they are listed. -/
theorem Tree.isProper_iff {α : Type} {t : Tree α} :
    t.IsProper ↔ ∀ e ∈ t.entries, e.1.IsProper := by
  constructor
  · intro h e he
    by_cases hroot : e.1 = []
    · rw [hroot]
      exact nofun
    · -- Some entry stands at the place of an entry that is there.
      have hkey : e.1 ∈ Dictionary.keys t.entries := List.mem_map.2 ⟨e, he, rfl⟩
      cases hget : Dictionary.get? t.entries e.1 with
      | none => exact absurd hkey (Dictionary.get?_eq_none_iff.1 hget)
      | some entry => exact h e.1 entry (by rw [Tree.get?, if_neg hroot, hget])
  · intro h place entry hget
    unfold Tree.get? at hget
    split at hget
    · rename_i hroot
      rw [hroot]
      exact nofun
    · exact h _ (Dictionary.mem_of_get? hget)

namespace Host

variable {host host' host'' : Host}

/-- Logging adds no name. -/
theorem IsProper.of_logged (h : host.IsProper) (hlogged : host.Logged host') : host'.IsProper where
  folder := hlogged.folder_eq ▸ h.folder
  tree := h.tree.of_sameOutline (hlogged.sameOutline h.hasLogFile)
  hasLogFile := hlogged.hasLogFile h.hasLogFile

/-- Nothing need have been listed. -/
theorem Listing.refl (host : Host) : host.Listing host :=
  ⟨.refl host, fun _ => id⟩

/-- To log is a part of listing. -/
theorem Listing.gives_log (h : host.Listing host') (hlog : host.HasLogFile) (level : LogLevel)
    (channel message : String) :
    EStateM.Gives (Act.log level channel message) host' fun _ host'' => host.Listing host'' := by
  intro u host'' hrecord
  -- There is a log file, so the record is written and nothing else changes.
  obtain ⟨host₁, hrecord', hlogged⟩ :=
    logged_log (h.logged.hasLogFile hlog) level channel message
  obtain ⟨-, rfl⟩ : u = () ∧ host'' = host₁ := by
    rw [hrecord'] at hrecord
    cases hrecord
    exact ⟨rfl, rfl⟩
  refine ⟨h.logged.trans hlogged, ?_⟩
  cases hrecord'
  exact h.replies

/-- The answer of a program is one of those that were there at first. -/
theorem Listing.gives_call (h : host.Listing host') (arguments : List Value) (timeout : Value) :
    EStateM.Gives (Act.call arguments timeout) host' fun reply host'' =>
      host.Listing host'' ∧ (reply = .notFound ∨ reply ∈ host.replies) := by
  rintro reply host'' ⟨⟩
  refine ⟨⟨⟨h.logged.folder_eq, h.logged.logFile_eq, h.logged.get?_eq, h.logged.grown⟩,
    fun reply hreply => h.replies reply (List.mem_of_mem_drop hreply)⟩, ?_⟩
  -- Where nothing is left to reply, the program is not there.
  cases hfirst : host'.replies.head? with
  | none => exact .inl rfl
  | some reply => exact .inr (h.replies reply (List.mem_of_mem_head? hfirst))

end Host

namespace IsListed

variable {host host' : Host} {path : String}

/-- What is listed from a later host is listed from the first one. -/
theorem of_logged (h : IsListed host' path) (hlogged : host.Logged host')
    (hlog : host.HasLogFile) : IsListed host path :=
  ⟨h.exists_straight, h.hasNul_eq, hlogged.leadsToFile_eq hlog path ▸ h.leadsToFile⟩

end IsListed

namespace Inventory

variable {host host' : Host} {extensions : List String} {patterns : List Value} {root : Path}

/-- What is refused gives nothing. -/
theorem gives_refuse {α : Type} (directory : Path) (reason : String) (P : α → Host → Prop) :
    EStateM.Gives (refuse directory reason : Act α) host P :=
  EStateM.gives_throw _

/-- A directory is started at by its canonical path, which leads to a folder. -/
theorem gives_startingAt_resolve (directory : String) :
    EStateM.Gives (startingAt directory) host fun root host' => host' = host ∧
      Act.resolve (Path.ofText directory) host = .ok root host ∧
      Act.hasNul root.text = false ∧
      ∃ place, host.tree.lookup host.folder root.text = .ok (place, .folder) := by
  intro root host' hrun
  unfold startingAt at hrun
  obtain ⟨root₁, host₁, hresolve, hask⟩ := EStateM.bind_eq_ok_iff.1 hrun
  obtain ⟨rfl, -⟩ := Act.gives_resolve_canonical? _ _ hresolve
  obtain ⟨b, host₂, hasked, hanswer⟩ := EStateM.bind_eq_ok_iff.1 hask
  obtain ⟨rfl, hfolder⟩ := Act.gives_isFolder _ _ _ hasked
  -- If there is no folder, the directory is refused.
  cases b with
  | false => cases hanswer
  | true =>
    cases hanswer
    exact ⟨rfl, hresolve, hfolder rfl⟩

/-- A directory is started at by a straight path. -/
theorem gives_startingAt (hfolder : host.folder.IsProper) (directory : String) :
    EStateM.Gives (startingAt directory) host fun root host' => root.IsStraight ∧ host' = host := by
  refine (gives_startingAt_resolve directory).mono fun root host' h => ?_
  obtain ⟨rfl, hresolve, -⟩ := h
  exact Act.gives_resolve hfolder _ _ _ hresolve

/-- A directory is listed from where its canonical path leads to a folder. -/
theorem startingAt_of_lookup {directory : String} {place : Place}
    (hcanonical : host.tree.canonical? host.folder (Path.ofText directory).text = some root)
    (hnul : Act.hasNul root.text = false)
    (hlookup : host.tree.lookup host.folder root.text = .ok (place, .folder)) :
    startingAt directory host = .ok root host := by
  unfold startingAt
  rw [EStateM.bind_of_ok _ (Act.resolve_of_lookup hcanonical hlookup),
    EStateM.bind_of_ok _ (Act.isFolder_of_lookup hnul hlookup)]
  rfl

/-- To match patterns changes nothing. -/
theorem gives_isExcluded (patterns : List Value) (root p : Path) :
    EStateM.Gives (isExcluded patterns root p) host fun _ host' => host' = host := by
  unfold isExcluded
  dsimp only
  split
  · exact EStateM.gives_pure rfl
  · exact EStateM.gives_pure rfl
  · exact EStateM.gives_throw _
  · exact EStateM.gives_throw _

/-! ## Walking -/

/-- What is walked through goes on straight from the root. -/
theorem isStraight_of_mem_entriesBelow {t : Tree Content} {here : Place}
    {e : Path × Entry Content} (ht : t.IsProper) (hroot : root.IsStraight)
    (h : e ∈ entriesBelow t here root) : e.1.IsStraight := by
  unfold entriesBelow at h
  split at h
  · obtain ⟨e', he', rfl⟩ := List.mem_map.1 h
    have hproper := Tree.isProper_iff.1 ht _ (List.mem_filter.1 he').1
    -- The names below a folder are proper ones, so none goes up.
    exact hroot.append fun n hn => hproper n (List.mem_of_mem_drop hn)
  · cases h

section Listing

variable {host₀ : Host}

/-- An entry is kept only if it is a file. -/
theorem gives_visit (hhost : host₀.IsProper) {found : Walked} {e : Path × Entry Content}
    (he : e.1.IsStraight) (h : host₀.Listing host ∧ ∀ f ∈ found.files, IsListed host₀ f) :
    EStateM.Gives (visit extensions patterns root found e) host fun found host' =>
      host₀.Listing host' ∧ ∀ f ∈ found.files, IsListed host₀ f := by
  unfold visit
  extract_lets p keep
  -- An entry is kept only if it leads to a file, so what is kept is listed.
  have hkeep (r : Unit) : EStateM.Gives (keep r) host fun found host' =>
      host₀.Listing host' ∧ ∀ f ∈ found.files, IsListed host₀ f := by
    dsimp only [keep]
    split
    · exact EStateM.gives_pure h
    · refine (Act.gives_isFile p.text).bind fun b host' hfile => ?_
      obtain ⟨rfl, hfile⟩ := hfile
      split
      · exact EStateM.gives_pure h
      · rename_i hb
        refine (gives_isExcluded patterns root p).bind fun excluded host' hsame => ?_
        subst hsame
        split
        · exact EStateM.gives_pure h
        · obtain ⟨hnul, hleads⟩ := hfile (by simpa using hb)
          have hlisted : IsListed host' p.text := ⟨⟨p, he, rfl⟩, hnul, hleads⟩
          refine EStateM.gives_pure ⟨h.1, ?_⟩
          simp only [List.mem_append, List.mem_singleton, or_imp, forall_and, forall_eq]
          exact ⟨h.2, hlisted.of_logged h.1.logged hhost.hasLogFile⟩
  split
  · -- A link is probed first; that changes nothing.
    refine EStateM.Gives.bind (P := fun _ host' => host' = host) ?_ fun r host' hsame => ?_
    · exact ((Act.gives_probe p.text).mono fun _ _ hfound => hfound.1).discard
    · exact hsame ▸ hkeep r
  · exact hkeep ()

/-- Walking lists straight paths of files. -/
theorem gives_walk (hhost : host₀.IsProper) (h : host₀.Listing host) (directory : String) :
    EStateM.Gives (walk directory extensions patterns) host fun files host' =>
      host₀.Listing host' ∧ ∀ f ∈ files, IsListed host₀ f := by
  have hproper := hhost.of_logged h.logged
  unfold walk
  refine (gives_startingAt hproper.folder directory).bind fun root host' hroot => ?_
  obtain ⟨hroot, rfl⟩ := hroot
  refine EStateM.gives_get.bind fun found host'' hsame => ?_
  obtain ⟨rfl, rfl⟩ := hsame
  extract_lets entries
  -- All entries below the root are spelled by straight paths.
  have hvisited : EStateM.Gives (entries.foldlM (visit extensions patterns root) {}) host''
      fun found host' => host₀.Listing host' ∧ ∀ f ∈ found.files, IsListed host₀ f :=
    EStateM.gives_foldlM (fun e he _ _ h =>
      gives_visit hhost (isStraight_of_mem_entriesBelow hproper.tree hroot he) h) ⟨h, nofun⟩
  refine hvisited.bind fun walked host₁ hwalked => ?_
  refine (hwalked.1.gives_log hhost.hasLogFile _ _ _).bind fun _ host₂ hlisting => ?_
  exact EStateM.gives_pure ⟨hlisting, hwalked.2⟩

/-! ## Version control -/

/-- What version control says is one of the answers that were there at first. -/
theorem gives_trackedNames (h : host₀.Listing host)
    (hreplies : ∀ reply ∈ host₀.replies, reply.NamesBelow) (root : Path) (timeout : Value) :
    EStateM.Gives (trackedNames root timeout) host fun output host' =>
      host₀.Listing host' ∧ ∀ piece ∈ output.toList.splitOn '\x00',
        (Path.ofText (String.ofList piece)).isAbsolute = false ∧
          ".." ∉ (Path.ofText (String.ofList piece)).names := by
  unfold trackedNames
  refine (h.gives_call _ timeout).bind fun reply host' hreply => ?_
  dsimp only
  split
  · exact gives_refuse _ _ _
  · exact EStateM.gives_bind fun _ _ => gives_refuse _ _ _
  · rename_i status output errors
    split
    · rename_i hstatus
      -- An answer that has come is not made up.
      have hmem := hreply.2.resolve_left nofun
      exact EStateM.gives_pure ⟨hreply.1, hreplies _ hmem hstatus⟩
    · exact gives_refuse _ _ _

/-- What version control names goes on straight from the directory, and only files are listed. -/
theorem gives_listTracked (hhost : host₀.IsProper) (h : host₀.Listing host)
    (hreplies : ∀ reply ∈ host₀.replies, reply.NamesBelow) (directory : String) (timeout : Value) :
    EStateM.Gives (listTracked directory extensions timeout) host fun files host' =>
      host₀.Listing host' ∧ ∀ f ∈ files, IsListed host₀ f := by
  unfold listTracked
  refine (gives_startingAt (hhost.of_logged h.logged).folder directory).bind
    fun root host' hroot => ?_
  obtain ⟨hroot, rfl⟩ := hroot
  refine (gives_trackedNames h hreplies root timeout).bind fun output host₁ houtput => ?_
  extract_lets names paths
  -- The names that version control gives are relative and never go up, so they stay below the root.
  have hstraight : ∀ p ∈ paths, p.IsStraight := by
    intro p hp
    obtain ⟨n, hn, rfl⟩ := List.mem_map.1 (List.mem_filter.1 hp).1
    obtain ⟨piece, hpiece, rfl⟩ := List.mem_map.1 (List.mem_filter.1 hn).1
    obtain ⟨hrelative, hup⟩ := houtput.2 piece hpiece
    exact hroot.append_ofText hrelative hup
  have hkept : EStateM.Gives (paths.filterM fun p => Act.isFile p.text) host₁ fun kept host' =>
      host₀.Listing host' ∧ ∀ p ∈ kept, IsListed host₀ p.text := by
    refine EStateM.gives_filterM (fun p hp host h => ?_) houtput.1
    refine (Act.gives_isFile p.text).mono fun b host' hfile => ?_
    obtain ⟨rfl, hfile⟩ := hfile
    -- A name is kept only if a file is found there.
    refine ⟨h, fun hb => ?_⟩
    have hlisted : IsListed host' p.text :=
      ⟨⟨p, hstraight p hp, rfl⟩, (hfile hb).1, (hfile hb).2⟩
    exact hlisted.of_logged h.logged hhost.hasLogFile
  refine hkept.bind fun files host₂ hfiles => ?_
  refine (hfiles.1.gives_log hhost.hasLogFile _ _ _).bind fun _ host₃ hlisting => ?_
  refine EStateM.gives_pure ⟨hlisting, fun f hf => ?_⟩
  obtain ⟨p, hp, rfl⟩ := List.mem_map.1 hf
  exact hfiles.2 p hp

end Listing

/-! ## All directories -/

/-- What is listed are straight paths of files, each once; of the host only the log has changed. -/
theorem gives_list {r : Request} (hhost : host.IsProper)
    (hreplies : r.trackedOnly = true → ∀ reply ∈ host.replies, reply.NamesBelow) :
    EStateM.Gives (list r) host fun paths host' =>
      host.Logged host' ∧ paths.Nodup ∧ ∀ path ∈ paths, IsListed host path := by
  unfold list
  have hfound : EStateM.Gives (r.directories.mapM fun directory =>
      if r.trackedOnly then listTracked directory r.extensions r.timeout
      else walk directory r.extensions r.excludePatterns) host fun found host' =>
        host.Listing host' ∧ ∀ files ∈ found, ∀ f ∈ files, IsListed host f := by
    refine EStateM.gives_mapM (fun directory _ host' h => ?_) (.refl host)
    split
    · rename_i htracked
      exact gives_listTracked hhost h (hreplies htracked) directory r.timeout
    · exact gives_walk hhost h directory
  refine hfound.bind fun found host₁ hfound => ?_
  refine (hfound.1.gives_log hhost.hasLogFile _ _ _).bind fun _ host₂ hlisting => ?_
  -- Erasing repetitions and sorting adds nothing.
  refine EStateM.gives_pure ⟨hlisting.logged, ?_, fun path hpath => ?_⟩
  · exact (List.mergeSort_perm _ _).nodup_iff.2 (List.nodup_eraseDups _)
  · have hmem := List.mem_eraseDups.1 ((List.mergeSort_perm _ _).mem_iff.1 hpath)
    obtain ⟨files, hfiles, hpath⟩ := List.mem_flatten.1 hmem
    exact hfound.2 files hfiles path hpath

/-- What is found in the only directory is listed. Without a log file nothing but the records of the
log is changed by saying so. -/
theorem list_of_one {r : Request} {directory : String} {found : List String}
    (hdirectories : r.directories = [directory])
    (hfound : (if r.trackedOnly then listTracked directory r.extensions r.timeout
      else walk directory r.extensions r.excludePatterns) host = .ok found host')
    (hlogFile : host'.logFile = none) :
    ∃ records, list r host = .ok (sorted found) { host' with records } := by
  -- With one directory, what is listed is what is found there, sorted.
  have hflat : [found].flatten = found := List.flatten_singleton
  have hmapped : r.directories.mapM (fun directory =>
      if r.trackedOnly then listTracked directory r.extensions r.timeout
      else walk directory r.extensions r.excludePatterns) host = .ok [found] host' := by
    rw [hdirectories, List.mapM_cons, EStateM.bind_of_ok _ hfound]
    rfl
  obtain ⟨records, hrecord⟩ := Host.log_of_unlogged hlogFile .info channel
    ("Inventory: " ++ toString (sorted found).length ++ " source files")
  refine ⟨records, (EStateM.bind_of_ok _ hmapped).trans ?_⟩
  rw [hflat]
  exact EStateM.bind_of_ok _ hrecord

/-- Texts in ascending order, each of them once, are sorted already. -/
theorem sorted_of_ascending {texts : List String} (hdups : texts.eraseDups = texts)
    (hascending : texts.Pairwise fun a b => decide (a ≤ b) = true) : sorted texts = texts := by
  rw [sorted, hdups]
  exact List.mergeSort_of_pairwise hascending

end Inventory

end ImportAtlas
