import ImportAtlas.Proofs.Store.Atomic
import ImportAtlas.Proofs.Writing

/-!
# Opening a database again

A database that is opened fresh, in a tree without links, lies where the names of its path lead. If
it could be opened, filled and closed once, the same can be done again: what was made is taken away,
and the folder that it lies in is there by then.

## Key results

- `Store.follow_of_passes`: a path that was put together once is put together again
- `Store.gives_opened`: what is there when a database has been opened
- `Store.gives_session_save`, `Store.session_save_again`: saving a graph, and saving one again
-/

namespace ImportAtlas.Store

open EStateM

/-! ## Where a database lies -/

section Follow

variable {α : Type} {t t₀ : Tree α} {budget : Nat} {here place : Place} {names : List String}

section Step

variable {segment : String} {rest : List String}

/-- Some segments stay in place. -/
theorem follow_stay (hstay : segment = "" ∨ segment = ".") :
    follow t budget here (segment :: rest) = follow t budget here rest := by
  rw [follow, if_pos hstay]

/-- A step up leads to the folder above. The root has none. -/
theorem follow_up : follow t budget here (".." :: rest) =
    if here = [] then none else follow t budget here.dropLast rest := by
  rw [follow, if_neg (by decide), if_pos rfl]

variable (hstay : ¬ (segment = "" ∨ segment = ".")) (hup : ¬ segment = "..")
include hstay hup

/-- A name that is no link is put behind the place, if nothing is in its way. -/
theorem follow_down (hlink : ∀ target, t.get? (here ++ [segment]) ≠ some (.link target)) :
    follow t budget here (segment :: rest) =
      if pathLimit < pathSize (here ++ [segment]) ∨ isBlocked t here segment = true then none
      else follow t budget (here ++ [segment]) rest := by
  rw [follow, if_neg hstay, if_neg hup, ite_or]
  split
  · rfl
  · -- With no link at the place both branches that are left go on below it.
    split
    · rfl
    · split
      · rename_i target hget
        exact absurd hget (hlink target)
      · rfl

/-- The target of a link comes before the segments that are left. -/
theorem follow_through {target : String}
    (hget : t.get? (here ++ [segment]) = some (.link target)) :
    follow t (budget + 1) here (segment :: rest) =
      if pathLimit < pathSize (here ++ [segment]) ∨ isBlocked t here segment = true then none
      else follow t budget (startOf here target) (segmentsOf target ++ rest) := by
  rw [follow, if_neg hstay, if_neg hup, hget, ite_or]

/-- Once no more links may be followed, a link is refused. -/
theorem follow_zero {target : String}
    (hget : t.get? (here ++ [segment]) = some (.link target)) :
    follow t 0 here (segment :: rest) = none := by
  rw [follow, if_neg hstay, if_neg hup, hget]
  dsimp only
  rw [ite_self, ite_self]

end Step

/-- Empty segments in front change nothing. -/
theorem follow_replicate (t : Tree α) (budget : Nat) (here : Place) (k : Nat)
    (segments : List String) :
    follow t budget here (List.replicate k "" ++ segments) = follow t budget here segments := by
  induction k with
  | zero => rfl
  | succ k ih => rw [List.replicate_succ, List.cons_append, follow_stay (.inl rfl), ih]

/-- A name stays nowhere. -/
theorem not_stay_of_isName {n : String} (h : Path.isName n = true) :
    ¬ (n = "" ∨ n = ".") := by
  rintro (rfl | rfl) <;> exact absurd h (by decide)

/-- Without links, a path is put together from its names. -/
theorem follow_eq_go (hplain : t.IsPlain) (hnames : ∀ n ∈ names, Path.isName n = true)
    (h : follow t budget here names = some place) : place = here.go names := by
  induction names generalizing here with
  | nil =>
    rw [follow] at h
    exact (Option.some_inj.1 h).symm
  | cons n rest ih =>
    simp only [List.mem_cons, forall_eq_or_imp] at hnames
    -- Without links a step up or down leads where the name says.
    by_cases hup : n = ".."
    · subst hup
      rw [follow_up, Option.ite_none_left_eq_some] at h
      exact ih hnames.2 h.2
    · rw [follow_down (not_stay_of_isName hnames.1) hup (hplain.ne_link _),
        Option.ite_none_left_eq_some] at h
      rw [Place.go_down here hup]
      exact ih hnames.2 h.2

/-- Nothing is in the way of a name in a folder, if it is not too long. -/
theorem isBlocked_eq_false (hclosed : t.IsClosed) (hfolder : t.isFolder here = true) {n : String}
    (hlong : isLongName n = false) : isBlocked t here n = false := by
  have habove : ∀ place ∈ (List.range (here.length + 1)).map here.take,
      t.get? place = some .folder := by
    intro place hplace
    obtain ⟨k, hk, rfl⟩ := List.mem_map.1 hplace
    apply Tree.isFolder_iff.1
    -- Every place on the way is the folder itself or has it below, so it is a folder.
    by_cases hrest : here.drop k = []
    · rwa [List.take_of_length_le (List.drop_eq_nil_iff.1 hrest)]
    · apply hclosed.isFolder_of_append hrest
      rw [List.take_append_drop, Tree.isFolder_iff.1 hfolder]
      exact nofun
  rw [isBlocked, hlong, Bool.and_false, Bool.or_false, List.any_eq_false]
  intro place hplace
  rw [habove place hplace]
  exact nofun

/-- In a folder, a name that is too long is in its own way. -/
theorem isLongName_of_not_isBlocked (hfolder : t.isFolder here = true) {n : String}
    (h : ¬ isBlocked t here n = true) : isLongName n = false := by
  simp only [isBlocked, hfolder, Bool.true_and, Bool.or_eq_true, not_or, Bool.not_eq_true] at h
  exact h.2

/-- A path that could be put together in some tree is put together in one that passes its names. -/
theorem follow_of_passes (hplain : t.IsPlain) (hclosed : t.IsClosed)
    (hnames : ∀ n ∈ names, Path.isName n = true) (hpasses : t.Passes here names)
    (hplain₀ : t₀.IsPlain) (h : follow t₀ budget here names = some place) :
    follow t budget here names = some place := by
  induction names generalizing here with
  | nil =>
    rw [follow] at h ⊢
    exact h
  | cons n rest ih =>
    simp only [List.mem_cons, forall_eq_or_imp] at hnames
    obtain ⟨hfolder, hlong, hrest⟩ := hpasses
    -- A step up is the same in both trees; a step down is free here because the way passes through
    -- it.
    by_cases hup : n = ".."
    · subst hup
      rw [follow_up, Option.ite_none_left_eq_some] at h ⊢
      exact ⟨h.1, ih hnames.2 hrest h.2⟩
    · have hstay := not_stay_of_isName hnames.1
      have hfree := ne_true_of_eq_false (isBlocked_eq_false hclosed hfolder hlong)
      rw [Place.go_down here hup] at hrest
      rw [follow_down hstay hup (hplain₀.ne_link _), Option.ite_none_left_eq_some, not_or] at h
      rw [follow_down hstay hup (hplain.ne_link _), Option.ite_none_left_eq_some, not_or]
      exact ⟨⟨h.1.1, hfree⟩, ih hnames.2 hrest h.2⟩

/-- A path that is put together has no last name that is too long for its folder. -/
theorem isLongName_of_follow {n : String} (hplain : t.IsPlain)
    (hnames : ∀ m ∈ names ++ [n], Path.isName m = true)
    (hfolder : t.isFolder (here.go names) = true)
    (h : follow t budget here (names ++ [n]) = some place) : isLongName n = false := by
  induction names generalizing here with
  | nil =>
    by_cases hup : n = ".."
    · subst hup
      decide
    · have hstay := not_stay_of_isName (hnames n (by simp))
      rw [List.nil_append, follow_down hstay hup (hplain.ne_link _),
        Option.ite_none_left_eq_some, not_or] at h
      -- Only the last step looks at the last name, and a name that is too long blocks it.
      exact isLongName_of_not_isBlocked hfolder h.1.2
  | cons m rest ih =>
    rw [List.cons_append, List.forall_mem_cons] at hnames
    rw [List.cons_append] at h
    by_cases hup : m = ".."
    · subst hup
      rw [follow_up, Option.ite_none_left_eq_some] at h
      exact ih hnames.2 hfolder h.2
    · rw [Place.go_down here hup] at hfolder
      rw [follow_down (not_stay_of_isName hnames.1) hup (hplain.ne_link _),
        Option.ite_none_left_eq_some] at h
      exact ih hnames.2 hfolder h.2

variable {p : Path}

/-- A path that is put together behind a folder that is there is passed. -/
theorem passes_of_placeOf? (hplain : t.IsPlain) (hp : p.IsGrounded)
    (hparent : t.Passes [] p.parent.names) (hfolder : t.isFolder p.parent.place = true)
    (h : placeOf? t here p.text = some place) : t.Passes [] p.names := by
  obtain ⟨k, hk⟩ := hp.segmentsOf_text
  obtain ⟨hfollow, -⟩ := Option.filter_eq_some_iff.1 h
  rw [hp.startOf_text, hk, follow_replicate] at hfollow
  -- The folders above are passed by assumption; the walk of the store passes the last name.
  rcases List.eq_nil_or_concat p.names with hnil | ⟨front, n, hnames⟩
  · rw [hnil]
    trivial
  · have hwell := hp.wellFormed
    rw [Path.place, Path.parent, hnames, List.concat_eq_append, List.dropLast_concat] at hfolder
    rw [Path.parent, hnames, List.concat_eq_append, List.dropLast_concat] at hparent
    rw [hnames, List.concat_eq_append] at hfollow ⊢
    rw [Path.WellFormed, hnames, List.concat_eq_append] at hwell
    exact Tree.passes_append.2
      ⟨hparent, hfolder, isLongName_of_follow hplain hwell hfolder hfollow, trivial⟩

/-- The place of a database in a tree without links is that of its path. -/
theorem placeOf?_eq_place (hplain : t.IsPlain) (hp : p.IsGrounded)
    (h : placeOf? t here p.text = some place) : place = p.place := by
  obtain ⟨k, hk⟩ := hp.segmentsOf_text
  obtain ⟨hfollow, -⟩ := Option.filter_eq_some_iff.1 h
  rw [hp.startOf_text, hk, follow_replicate] at hfollow
  exact follow_eq_go hplain hp.wellFormed hfollow

/-- In a plain tree whose folders are there, a path leads to the place to which it led before. -/
theorem placeOf?_of_passes (hplain : t.IsPlain) (hclosed : t.IsClosed) (hp : p.IsGrounded)
    (hpasses : t.Passes [] p.names) (hplain₀ : t₀.IsPlain) {here₀ : Place}
    (h : placeOf? t₀ here₀ p.text = some place) : placeOf? t here p.text = some place := by
  -- Leading empty segments stay where they are.
  obtain ⟨k, hk⟩ := hp.segmentsOf_text
  obtain ⟨hfollow, hsize⟩ := Option.filter_eq_some_iff.1 h
  rw [hp.startOf_text, hk, follow_replicate] at hfollow
  have hagain := follow_of_passes hplain hclosed hp.wellFormed hpasses hplain₀ hfollow
  rw [placeOf?, hp.startOf_text, hk, follow_replicate, hagain]
  exact Option.filter_eq_some_iff.2 ⟨rfl, hsize⟩

end Follow

/-! ## Taking the old file away -/

variable {host host' : Host} {p : Path} {c : Connection}

/-- The address of a database that has a path from the root is that path. -/
theorem ofText_text_of_isGrounded (hp : p.IsGrounded) :
    Address.ofText p.text = .ok { path := p.text } := by
  apply Address.ofText_of_not_isPrefixOf
  obtain ⟨slashes, hslashes, htext⟩ := hp.toList_text
  rw [htext]
  rcases hslashes with rfl | rfl <;> rfl

/-- A path from the root names no database in memory. -/
theorem isInMemory_of_isGrounded (hp : p.IsGrounded) :
    Address.isInMemory { path := p.text } = false := by
  obtain ⟨slashes, hslashes, htext⟩ := hp.toList_text
  -- The text begins with a slash, which neither of the two special names does.
  have hempty : p.text ≠ "" := by
    intro heq
    rw [heq] at htext
    rcases hslashes with rfl | rfl <;> cases htext
  have hmemory : p.text ≠ ":memory:" := by
    intro heq
    rw [heq] at htext
    rcases hslashes with rfl | rfl <;> simp at htext
  simp [Address.isInMemory, Address.isUnnamed, hempty, hmemory]

/-- Taking a file away changes nothing but the tree, if there is no log file. -/
theorem removeFile_of_change (hlog : host.logFile = none) {tree : Tree Content}
    (hchange : Act.change p.text Tree.removeFile host = .ok () { host with tree }) :
    Act.removeFile p.text host = .ok () { host with tree } := by
  -- Without a log file there is none that could be unlinked.
  have hhost : { host with tree, logFile := host.logFile.filter fun file =>
      (tree.get? file.place).isSome } = { host with tree } := by
    simp only [hlog, Option.filter_none]
  unfold Act.removeFile
  rw [bind_of_ok _ hchange]
  exact congrArg (EStateM.Result.ok ()) hhost

/-- What is taken away is no folder, and without links it is a file. -/
theorem eq_erase_of_removeFile {tree tree' : Tree Content} {here : Place} (hplain : tree.IsPlain)
    (hclosed : tree.IsClosed) (hp : p.IsGrounded)
    (hremove : tree.removeFile here p.text = .ok tree') :
    isLongPath p.text = false ∧ (∃ content, tree.get? p.place = some (.file content)) ∧
      tree' = tree.erase p.place := by
  unfold Tree.removeFile at hremove
  split at hremove
  · cases hremove
  · rename_i place entry hno hlocate
    cases hremove
    obtain ⟨hlong, -, hspot⟩ := (hplain.locate_eq_ok_iff hclosed hp).1 hlocate
    obtain ⟨rfl, hget⟩ := Tree.present_eq_spotAt_iff.1 hspot
    -- A folder would not have been removed, and a plain tree has no links.
    cases entry with
    | file content => exact ⟨hlong, ⟨content, hget⟩, rfl⟩
    | folder => exact (hno rfl).elim
    | link target => exact absurd hget (hplain.ne_link _ _)
  · cases hremove
  · cases hremove

/-- A path that is too long is not said to be missing. -/
theorem isLongPath_of_missing {tree : Tree Content} {here : Place} {path : String}
    (h : tree.removeFile here path = .error .missing) : isLongPath path = false := by
  by_contra hlong
  have hempty : path ≠ "" := by
    rintro rfl
    exact hlong (by decide)
  rw [Tree.removeFile, Tree.locate, if_neg hempty, if_pos (by simpa using hlong)] at h
  cases h

/-- A file that a path leads to can be taken away. -/
theorem removeFile_of_isWritten (hhost : host.IsPlain) (hp : p.IsGrounded)
    (hwritten : host.tree.IsWritten p) :
    Act.removeFile p.text host = .ok () { host with tree := host.tree.erase p.place } := by
  obtain ⟨content, hget⟩ := hwritten.exists_file
  -- The path leads to the file itself, as there are no links.
  have hlocate : host.tree.locate host.folder .kept p.text =
      .ok (.present p.place (.file content)) :=
    (hhost.isPlain.locate_eq_ok_iff hhost.isClosed hp).2
      ⟨hwritten.isLongPath_eq, hwritten.passes, (Tree.spotAt_of_get? hget).symm⟩
  apply removeFile_of_change hhost.logFile_eq
  apply Act.change_of_ok hwritten.hasNul_eq
  rw [Tree.removeFile, hlocate]

/-- Without a file at a place the tree is still sound. -/
theorem isPlain_erase (hhost : host.IsPlain) {content : Content} {place : Place}
    (hget : host.tree.get? place = some (.file content)) :
    Host.IsPlain { host with tree := host.tree.erase place } := by
  have hno : host.tree.get? place ≠ some .folder := by
    rw [hget]
    exact nofun
  have hroot := Tree.ne_nil_of_get?_ne_folder hno
  refine ⟨hhost.folder, fun e he => hhost.isPlain e (List.mem_filter.1 he).1,
    Tree.isClosed_erase hhost.isClosed hno, fun other entry hother => ?_, hhost.logFile_eq⟩
  -- What is found in the smaller tree was there before.
  have hne : place ≠ other := by
    rintro rfl
    rw [Tree.get?_erase_self _ hroot] at hother
    cases hother
  rw [Tree.get?_erase_of_ne _ hne] at hother
  exact hhost.isProper other entry hother

/-! ## Opening -/

/-- The storage of a database that lies at a path. -/
theorem storageOf_eq_ok {t : Tree Content} {here : Place} (hplain : t.IsPlain)
    (hp : p.IsGrounded) {storage : Storage}
    (h : storageOf { path := p.text } t here = .ok storage) :
    storage = .file p.place ∧ placeOf? t here p.text = some p.place ∧
      ((∃ content, t.get? p.place = some (.file content)) ∨
        t.get? p.place = none ∧ t.isFolder p.place.dropLast = true) := by
  unfold storageOf at h
  rw [isInMemory_of_isGrounded hp] at h
  simp only [Bool.false_eq_true, ↓reduceIte] at h
  split at h
  · rename_i place hplace
    -- Without links the walk of the store ends where the path's names lead.
    obtain rfl := placeOf?_eq_place hplain hp hplace
    simp only [Address.modelFile?, Address.option?, List.find?_nil, Option.map_none] at h
    split at h
    · rename_i content hget
      cases h
      exact ⟨rfl, hplace, .inl ⟨content, hget⟩⟩
    · cases h
    · rename_i hget
      split at h
      · rename_i hfolder
        cases h
        exact ⟨rfl, hplace, .inr ⟨hget, by simpa using hfolder⟩⟩
      · cases h
  · cases h

/-- What is there when a database has been opened fresh: a file at the place of its path, in a
folder that was there or has been made. The file is new, or it could not be taken away because the
folder was missing. -/
structure IsOpened (t t' : Tree Content) (p : Path) : Prop where
  isPlain : t'.IsPlain
  isClosed : t'.IsClosed
  ne_folder : t.get? p.place ≠ some .folder
  /-- Elsewhere nothing changes but for the folders that are made. -/
  get?_cases : ∀ place, place ≠ p.place → t'.get? place = t.get? place ∨
    t.get? place = none ∧ t'.get? place = some .folder ∧ place.IsProper ∧ place.IsShort
  /-- The file is there, as it was or empty. -/
  exists_file : ∃ content, t'.get? p.place = some (.file content) ∧
    (content = .bytes [] ∨ t.get? p.place = some (.file content))
  hasNul_eq : Act.hasNul p.text = false
  parent_hasNul_eq : Act.hasNul p.parent.text = false
  isLongPath_eq : isLongPath p.text = false
  passes : t'.Passes [] p.names
  parent_isLongPath_eq : isLongPath p.parent.text = false
  isFolder_parent : t'.isFolder p.parent.place = true
  exists_placeOf? : ∃ t₀ : Tree Content, ∃ here, t₀.IsPlain ∧
    placeOf? t₀ here p.text = some p.place

/-- A new file at a free place, or the file that is there. -/
theorem plant_file {t : Tree Content} {place : Place} (hroot : place ≠ []) :
    (∀ other, other ≠ place → (Storage.plant t (.file place)).get? other = t.get? other) ∧
      (t.get? place = none →
        (Storage.plant t (.file place)).get? place = some (.file (.bytes []))) ∧
      ∀ entry, t.get? place = some entry → Storage.plant t (.file place) = t := by
  -- A file is planted only where nothing is, and changes no other place.
  refine ⟨fun other hne => ?_, fun hfree => ?_, fun entry hget => ?_⟩
  · dsimp only [Storage.plant]
    split
    · exact Tree.get?_put_of_ne _ (Ne.symm hne) _
    · rfl
  · rw [Storage.plant, hfree]
    exact Tree.get?_put_self _ hroot _
  · rw [Storage.plant, hget]
    rfl

/-- The old file has been taken away, or it was not found. -/
def IsCleared (t t' : Tree Content) (p : Path) : Prop :=
  t' = t ∨ (∃ content, t.get? p.place = some (.file content)) ∧ t' = t.erase p.place

/-- Clearing a path changes no other place. -/
theorem IsCleared.get?_eq {t t' : Tree Content} (h : IsCleared t t' p) {place : Place}
    (hne : place ≠ p.place) : t'.get? place = t.get? place := by
  rcases h with rfl | ⟨-, rfl⟩
  · rfl
  · exact Tree.get?_erase_of_ne _ (Ne.symm hne)

/-- What stood at the path has been taken away, or nothing was found. -/
theorem ends_taken (hlog : host.logFile = none) : Ends (tryCatch (Act.removeFile p.text) fun
      | .access .missing _ => pure ()
      | e => throw e) host
    (fun _ host' => Act.hasNul p.text = false ∧ ∃ tree, host' = { host with tree } ∧
      (host.tree.removeFile host.folder p.text = .ok tree ∨
        host.tree.removeFile host.folder p.text = .error .missing ∧ tree = host.tree))
    fun _ host' => host' = host := by
  have hchange : Ends (Act.change p.text Tree.removeFile) host _ _ :=
    ends_iff.2 ⟨Act.gives_change, Act.fails_change⟩
  have hremove : Ends (Act.removeFile p.text) host
      (fun _ host' => Act.hasNul p.text = false ∧ ∃ tree, host' = { host with tree } ∧
        host.tree.removeFile host.folder p.text = .ok tree)
      fun e host' => host' = host ∧ (e = .nul ∧ Act.hasNul p.text = true ∨
        Act.hasNul p.text = false ∧ ∃ fault, e = .access fault p.text ∧
          host.tree.removeFile host.folder p.text = .error fault) := by
    unfold Act.removeFile
    refine hchange.bind ?_
    rintro _ _ ⟨tree, rfl, hnul, hremove⟩
    refine ends_of_ok rfl ⟨hnul, tree, ?_, hremove⟩
    simp only [hlog, Option.filter_none]
  refine (hremove.mono ?_ fun _ _ h => h).tryCatch ?_
  · rintro _ host' ⟨hnul, tree, rfl, hremove⟩
    exact ⟨hnul, tree, rfl, .inl hremove⟩
  · rintro e host' ⟨rfl, hcause⟩
    split
    · -- The caught fault is that of a path that leads nowhere.
      rcases hcause with ⟨hcause, -⟩ | ⟨hnul, fault, hfault, hmissing⟩
      · cases hcause
      · cases hfault
        exact ends_pure ⟨hnul, _, rfl, .inr ⟨hmissing, rfl⟩⟩
    · exact ends_throw rfl

/-- A path that leads nowhere is passed over when the old file is taken away. -/
theorem gives_clear (hhost : host.IsPlain) (hp : p.IsGrounded) :
    Gives (tryCatch (Act.removeFile p.text) fun
      | .access .missing _ => pure ()
      | e => throw e) host fun _ host' => Act.hasNul p.text = false ∧
        isLongPath p.text = false ∧ ∃ tree, host' = { host with tree } ∧
        Host.IsPlain { host with tree } ∧ IsCleared host.tree tree p := by
  refine (ends_taken hhost.logFile_eq).gives.mono fun _ host' h => ?_
  -- The old file was taken away, or there was none.
  obtain ⟨hnul, tree, rfl, hremove | ⟨hmissing, rfl⟩⟩ := h
  · obtain ⟨hlong, ⟨content, hget⟩, rfl⟩ :=
      eq_erase_of_removeFile hhost.isPlain hhost.isClosed hp hremove
    exact ⟨hnul, hlong, _, rfl, isPlain_erase hhost hget, .inr ⟨⟨content, hget⟩, rfl⟩⟩
  · exact ⟨hnul, isLongPath_of_missing hmissing, _, rfl, hhost, .inl rfl⟩

/-- Once the folder is there, the file is made, unless it was not found before for want of the
folder. -/
theorem isOpened_plant {t t₁ t₂ : Tree Content} {here : Place} (hcleared : IsCleared t t₁ p)
    (hgrown : Tree.Grown (fun _ => False) t₁ t₂) (hplain : t₂.IsPlain) (hp : p.IsGrounded)
    (hnul : Act.hasNul p.text = false) (hlong : isLongPath p.text = false)
    (hnul' : Act.hasNul p.parent.text = false)
    (hlookup : t₂.lookup here p.parent.text = .ok (p.parent.place, .folder)) {storage : Storage}
    (hstorage : storageOf { path := p.text } t₂ here = .ok storage) :
    storage = .file p.place ∧ IsOpened t (Storage.plant t₂ storage) p := by
  obtain ⟨rfl, hplace, hspot⟩ := storageOf_eq_ok hplain hp hstorage
  have hno : t₂.get? p.place ≠ some .folder := by
    rcases hspot with ⟨content, hget⟩ | ⟨hget, -⟩ <;> rw [hget] <;> exact nofun
  have hroot := Tree.ne_nil_of_get?_ne_folder hno
  obtain ⟨hothers, hnew, hold⟩ := plant_file (t := t₂) hroot
  have hplanted : Tree.Grown (Eq p.place) t₂ (Storage.plant t₂ (.file p.place)) := by
    -- The file is there already, or it is planted in the folder above.
    rcases hspot with ⟨content, hget⟩ | ⟨hget, habove⟩
    · rw [hold _ hget]
      exact .refl hplain hgrown.isClosed
    · rw [Storage.plant, hget]
      exact Tree.grown_put_file hplain hgrown.isClosed rfl hno habove hp.isProper_place _
  obtain ⟨hlong', hpasses', -, hparent⟩ :=
    (hplain.lookup_eq_ok_iff hgrown.isClosed hp.parent).1 hlookup
  have hfolder := Tree.isFolder_iff.2 hparent
  have hpasses := passes_of_placeOf? hplain hp hpasses' hfolder hplace
  refine ⟨rfl, hplanted.isPlain, hplanted.isClosed, ?_, fun place hne => ?_, ?_, hnul, hnul', hlong,
    hpasses.mono fun _ => hplanted.isFolder, hlong', hplanted.isFolder hfolder,
    t₂, _, hplain, hplace⟩
  · rcases hcleared with rfl | ⟨⟨content, hget⟩, -⟩
    · exact fun hfolder => hno (hgrown.get?_folder hfolder)
    · rw [hget]
      exact nofun
  · rw [hothers place hne, ← hcleared.get?_eq hne]
    exact (hgrown.get?_cases place).imp_right fun h => h.resolve_right fun h => h.1
  · rcases hspot with ⟨content, hget⟩ | ⟨hget, -⟩
    · refine ⟨content, by rw [hold _ hget, hget], .inr ?_⟩
      -- A file that is there before the database is made has not been taken away.
      rcases hgrown.get?_cases p.place with hsame | ⟨-, hfolder, -⟩ | ⟨hfalse, -⟩
      · rcases hcleared with rfl | ⟨-, rfl⟩
        · rw [← hsame, hget]
        · rw [Tree.get?_erase_self _ hroot, hget] at hsame
          cases hsame
      · exact absurd hfolder hno
      · exact hfalse.elim
    · exact ⟨_, hnew hget, .inl rfl⟩

/-- To open the path of a database gives a connection to the file there, which is made if it is
missing. -/
theorem gives_opened (hhost : host.IsPlain) (hp : p.IsGrounded) :
    Gives (opened p true) host fun c host' => c = { storage := .file p.place } ∧
      ∃ tree, host' = { host with tree } ∧ IsOpened host.tree tree p := by
  unfold opened
  extract_lets refuse make
  refine Gives.bind (P := fun _ host' => Act.hasNul p.text = false ∧
    isLongPath p.text = false ∧ ∃ t₁ t₂, host' = { host with tree := t₂ } ∧
    Host.IsPlain { host with tree := t₂ } ∧ IsCleared host.tree t₁ p ∧
    Tree.Grown (fun _ => False) t₁ t₂ ∧ Act.hasNul p.parent.text = false ∧
    t₂.lookup host.folder p.parent.text = .ok (p.parent.place, .folder)) ?_ fun _ host₂ h₂ => ?_
  · -- First the old file goes, then the folders above come.
    refine Gives.tryCatch ((gives_clear hhost hp).bind fun _ host₁ h₁ => ?_) fun e host' _ => ?_
    · obtain ⟨hnul, hlong, t₁, rfl, hhost₁, hcleared⟩ := h₁
      refine (Act.gives_makeFolders (fun _ => False) hhost₁ hp.parent).mono fun _ host₂ h₂ => ?_
      obtain ⟨t₂, rfl, hgrown, hnul', hlookup⟩ := h₂
      exact ⟨hnul, hlong, t₁, t₂, rfl, hhost₁.with_tree hgrown, hcleared, hgrown, hnul', hlookup⟩
    · split <;> exact gives_throw _
  obtain ⟨hnul, hlong, t₁, t₂, rfl, hhost₂, hcleared, hgrown, hnul', hlookup⟩ := h₂
  refine gives_get.bind fun found host₃ hsame => ?_
  obtain ⟨rfl, rfl⟩ := hsame
  simp only [ofText_text_of_isGrounded hp]
  split
  · exact gives_throw _
  · rename_i storage hstorage
    -- The address is the plain path, so the storage is the file at its place.
    obtain ⟨rfl, hopened⟩ :=
      isOpened_plant hcleared hgrown hhost₂.isPlain hp hnul hlong hnul' hlookup hstorage
    rintro _ _ ⟨⟩
    rw [Address.isReadOnly_of_path]
    exact ⟨rfl, _, rfl, hopened⟩

/-! ## Making tables -/

variable {place : Place} {t : Tables}

/-- The host with tables in a file. -/
def stored (host : Host) (place : Place) (t : Tables) : Host :=
  { host with
    tree := host.tree.put place (.file (.database t))
    connection := some { storage := .file place } }

/-- Tables are stored in the file of the open connection. -/
theorem store_eq {c : Connection} (hconnection : host.connection = some c)
    (hstorage : c.storage = .file place) (hwritable : c.isReadOnly = false) (t : Tables) :
    store t host = .ok () (stored host place t) := by
  obtain ⟨storage, isReadOnly, transaction⟩ := c
  subst hstorage hwritable
  unfold store
  rw [bind_of_ok _ (connection_of_eq hconnection)]
  rfl

/-- Once there are tables there is room for a journal: it was needed to make them, unless they were
there already. -/
theorem gives_makeTables (hconnection : host.connection = some { storage := .file place })
    (hjournal : ∀ tables, host.tree.get? place = some (.file (.database tables)) →
      hasJournalName place = true) :
    Gives makeTables host fun _ host' => hasJournalName place = true ∧
      (host' = host ∨ host' = stored host place .empty) := by
  intro u host' h
  unfold makeTables at h
  rw [bind_of_ok _ (connection_of_eq hconnection), bind_get] at h
  cases hcommitted : committed host.tree (.file place) with
  | error fault =>
    rw [hcommitted] at h
    cases h
  | ok found =>
    rw [hcommitted, bind_of_ok _ (Act.ofExcept_ok _ _ _)] at h
    cases found with
    | some tables =>
      cases h
      refine ⟨?_, .inl rfl⟩
      -- Tables that were there are kept, and their file has its journal by assumption.
      simp only [committed] at hcommitted
      split at hcommitted
      · rename_i tables' hget
        exact hjournal tables' hget
      · cases hcommitted
      · cases hcommitted
    | none =>
      simp only [Option.isNone_none, ↓reduceIte, Bool.false_eq_true] at h
      split at h
      · cases h
      · -- New tables are made only where the journal has a name.
        rename_i hroom
        rw [store_eq hconnection rfl rfl] at h
        cases h
        exact ⟨by simpa using hroom, .inr rfl⟩

/-- Tables are made in a file of no bytes. -/
theorem makeTables_of_empty (hconnection : host.connection = some { storage := .file place })
    (hget : host.tree.get? place = some (.file (.bytes []))) (hroom : hasJournalName place = true) :
    makeTables host = .ok () (stored host place .empty) := by
  -- An empty file holds no database yet.
  have hcommitted : committed host.tree (.file place) = .ok none := by
    simp only [committed, hget]
  unfold makeTables
  rw [bind_of_ok _ (connection_of_eq hconnection), bind_get]
  simp only [hcommitted]
  rw [bind_of_ok _ (Act.ofExcept_ok _ _ _)]
  simp only [Option.isNone_none, ↓reduceIte, Bool.false_eq_true, hroom, Bool.not_true]
  exact store_eq hconnection rfl rfl _

/-! ## Saving -/

/-- Files that went into a transaction have ids that fit. -/
theorem gives_stageFiles {c : Connection} (files : List SourceFile) (t : Tables) :
    Gives (files.forM stageFile) (staged host c t) fun _ host' =>
      host' = staged host c (files.foldl Tables.withFile t) ∧
        ∀ f ∈ files, fits f.id = true := by
  induction files generalizing t with
  | nil => exact gives_pure ⟨rfl, nofun⟩
  | cons f files ih =>
    rw [List.forM_eq_forM, List.forM_cons]
    refine Gives.bind (P := fun _ host' => host' = staged host c (t.withFile f) ∧
      fits f.id = true) ?_ ?_
    · intro u host' h
      obtain ⟨f', t', hcolumns, hinsert, rfl⟩ := stageRow_eq_ok h
      have hbinds := binds_file f
      rw [hcolumns] at hbinds
      obtain ⟨rfl, hfits⟩ := hbinds
      rcases t.insertFile_cases f' with hok | ⟨rule, herror⟩
      · rw [hinsert] at hok
        cases hok
        exact ⟨rfl, hfits⟩
      · rw [hinsert] at herror
        cases herror
    · rintro _ host' ⟨rfl, hfits⟩
      refine (ih (t.withFile f)).mono fun _ host' h => ⟨h.1, ?_⟩
      rw [List.forall_mem_cons]
      exact ⟨hfits, h.2⟩

/-- For imports that went into a transaction there were ids. -/
theorem gives_stageEdges {c : Connection} (edges : List ImportEdge) (t : Tables) :
    Gives (edges.forM stageEdge) (staged host c t) fun _ host' =>
      host' = staged host c (edges.foldl Tables.withEdge t) ∧
        (edges = [] ∨ t.nextImportId + edges.length ≤ Tables.lastId + 1) := by
  induction edges generalizing t with
  | nil => exact gives_pure ⟨rfl, .inl rfl⟩
  | cons e edges ih =>
    rw [List.forM_eq_forM, List.forM_cons]
    refine Gives.bind (P := fun _ host' => host' = staged host c (t.withEdge e) ∧
      t.nextImportId ≤ Tables.lastId) ?_ ?_
    · -- A staged import has taken an id, so there was one left.
      intro u host' h
      obtain ⟨e', t', hcolumns, hinsert, rfl⟩ := stageRow_eq_ok h
      have hbinds := binds_edge e
      rw [hcolumns] at hbinds
      obtain rfl : e = e' := hbinds.1.trans e'.as_self
      rcases t.insertImport_cases e with hok | ⟨rule, herror⟩
      · rw [hinsert] at hok
        cases hok
        exact ⟨rfl, Tables.nextImportId_le hinsert⟩
      · rw [hinsert] at herror
        cases herror
    · rintro _ host' ⟨rfl, hroom⟩
      -- Each import takes the next id, so the room for all of them is counted from here.
      refine (ih (t.withEdge e)).mono fun _ host' h => ⟨h.1, .inr ?_⟩
      have hnext : (t.withEdge e).nextImportId = t.nextImportId + 1 := t.nextImportId_append e
      rw [List.length_cons]
      rcases h.2 with rfl | hrest
      · rw [List.length_nil]
        omega
      · omega

/-- To commit what is staged is to store it. -/
theorem commit_staged_eq (host : Host) (place : Place) (t : Tables) :
    commit (staged host { storage := .file place } t) = .ok () (stored host place t) := by
  unfold commit
  rw [bind_of_ok _ connection_staged]
  exact store_eq (c := { storage := .file place, transaction := some t }) rfl rfl rfl t

/-- A graph that was saved fits into tables, and is in those of the file, behind what was there. -/
theorem gives_save (g : ImportGraph)
    (hconnection : host.connection = some { storage := .file place }) :
    Gives (save g) host fun _ host' => g.FitsTables ∧ ∃ t,
      committed host.tree (.file place) = .ok (some t) ∧
      host' = stored host place (t.withRows g.files g.edges) := by
  rw [Gives, save_eq g hconnection rfl]
  refine Gives.tryCatch ?_ fun e host' _ => ?_
  · by_cases hcommitted : ∃ t, committed host.tree (.file place) = .ok (some t)
    · obtain ⟨t, hcommitted⟩ := hcommitted
      have hstage : stage t host = .ok () (staged host { storage := .file place } t) := by
        unfold stage
        rw [bind_of_ok _ (connection_of_eq hconnection)]
        rfl
      intro u host' h
      unfold writeGraph at h
      rw [bind_of_ok _ (tables_of_committed hconnection rfl hcommitted), bind_of_ok _ hstage] at h
      obtain ⟨_, host₁, hfiles, h⟩ := bind_eq_ok_iff.1 h
      -- Each loop gives what it has staged and that all of it could be staged.
      obtain ⟨rfl, hfits⟩ := gives_stageFiles g.files t _ _ hfiles
      obtain ⟨_, host₂, hedges, h⟩ := bind_eq_ok_iff.1 h
      obtain ⟨rfl, hroom⟩ := gives_stageEdges g.edges (g.files.foldl Tables.withFile t) _ _ hedges
      rw [commit_staged_eq] at h
      cases h
      refine ⟨⟨hfits, ?_⟩, t, hcommitted, rfl⟩
      -- The first import has an id that is positive.
      have hfirst := (g.files.foldl Tables.withFile t).one_le_nextImportId
      rcases hroom with hnone | hroom
      · rw [hnone]
        decide
      · omega
    · obtain ⟨fault, hwrite⟩ := writeGraph_of_no_tables g hconnection rfl (not_exists.1 hcommitted)
      intro u host' h
      rw [hwrite] at h
      cases h
  · unfold takeBack
    split
    · exact gives_bind fun _ _ => gives_throw _
    · exact gives_throw _

/-! ## Sessions -/

section Session

variable {α : Type} {path : Path} {fresh : Bool} {act : Act α} {host₁ host₂ : Host} {e : Error}
  {a : α}

/-- A session whose connection fails fails alike, with nothing open. -/
theorem session_of_connect_error (h : connect path fresh host = .error e host₁) :
    session path fresh act host = .error e { host₁ with connection := none } := by
  unfold session
  simp only [bind, EStateM.bind, h, tryCatch, tryCatchThe, MonadExceptOf.tryCatch,
    EStateM.tryCatch]
  rfl

/-- A session whose act fails fails alike, and is closed. -/
theorem session_of_error (h : connect path fresh host = .ok () host₁)
    (hact : act host₁ = .error e host₂) :
    session path fresh act host = .error e { host₂ with connection := none } := by
  unfold session
  simp only [bind, EStateM.bind, h, hact, tryCatch, tryCatchThe, MonadExceptOf.tryCatch,
    EStateM.tryCatch]
  rfl

/-- A session whose act succeeds gives what the act gives, and is closed. -/
theorem session_of_ok (h : connect path fresh host = .ok () host₁)
    (hact : act host₁ = .ok a host₂) :
    session path fresh act host = .ok a { host₂ with connection := none } := by
  unfold session
  simp only [bind, EStateM.bind, h, hact, tryCatch, tryCatchThe, MonadExceptOf.tryCatch,
    EStateM.tryCatch]
  rfl

/-- A session that succeeds has connected, done its act, and closed the connection. -/
theorem gives_session : Gives (session path fresh act) host fun a host' => ∃ host₁ host₂,
    connect path fresh host = .ok () host₁ ∧ act host₁ = .ok a host₂ ∧
      host' = { host₂ with connection := none } := by
  intro a host' h
  cases hconnect : connect path fresh host with
  | error e host₁ =>
    rw [session_of_connect_error hconnect] at h
    cases h
  | ok u host₁ =>
    cases hact : act host₁ with
    | error e host₂ =>
      rw [session_of_error hconnect hact] at h
      cases h
    | ok a' host₂ =>
      rw [session_of_ok hconnect hact] at h
      cases h
      exact ⟨host₁, host₂, rfl, hact, rfl⟩

end Session

/-- The databases of a tree have names that leave room for a journal. -/
def HasJournals (t : Tree Content) : Prop :=
  ∀ place tables, t.get? place = some (.file (.database tables)) → hasJournalName place = true

/-- What is known of a database once a graph was saved to it: it is there, it can be found by its
path, and there is room for its journal. -/
structure IsSaved (t : Tree Content) (p : Path) : Prop where
  isWritten : t.IsWritten p
  hasJournalName_eq : hasJournalName p.place = true
  exists_placeOf? : ∃ t₀ : Tree Content, ∃ here, t₀.IsPlain ∧
    placeOf? t₀ here p.text = some p.place

/-- A file that has been opened can be written. -/
theorem IsOpened.isWritten {t₁ t₂ : Tree Content} (h : IsOpened t₁ t₂ p) : t₂.IsWritten p where
  hasNul_eq := h.hasNul_eq
  parent_hasNul_eq := h.parent_hasNul_eq
  isLongPath_eq := h.isLongPath_eq
  parent_isLongPath_eq := h.parent_isLongPath_eq
  passes := h.passes
  isFolder_parent := h.isFolder_parent
  exists_file := by
    obtain ⟨content, hget, -⟩ := h.exists_file
    exact ⟨content, hget⟩

/-- What is put into the place of a database is a file there, and all else stays. -/
theorem IsOpened.grown {t₁ t₂ t₃ : Tree Content} {written : Place → Prop} (h : IsOpened t₁ t₂ p)
    (hp : p.IsGrounded) (hwritten : written p.place) (hgrown : Tree.Grown (Eq p.place) t₂ t₃) :
    Tree.Grown written t₁ t₃ := by
  obtain ⟨content, hget, -⟩ := h.exists_file
  refine Tree.grown_of_get?_cases hgrown.isPlain hgrown.isClosed hwritten h.ne_folder
    hp.isProper_place (hgrown.get?_file hget) fun other hne => ?_
  -- A place away from the database is as opening left it, and that is the old entry or a new
  -- folder.
  rcases hgrown.get?_cases other with hsame | ⟨hfree, hfolder⟩ | ⟨heq, -⟩
  · rw [hsame]
    exact h.get?_cases other hne
  · refine .inr ⟨?_, hfolder⟩
    rcases h.get?_cases other hne with hsame | ⟨hfree', -⟩
    · rw [← hsame, hfree]
    · exact hfree'
  · exact absurd heq.symm hne

/-- What a connection to a database leaves: the database is there, with what was found or with new
tables, and nothing else has been changed but for the folders that were made. -/
theorem gives_connect (hhost : host.IsPlain) (hp : p.IsGrounded)
    (hjournals : HasJournals host.tree) :
    Gives (connect p true) host fun _ host' => ∃ tree, host.SameOutside host' ∧
      host'.connection = some { storage := .file p.place } ∧ hasJournalName p.place = true ∧
      IsOpened host.tree tree p ∧ Tree.Grown (Eq p.place) tree host'.tree := by
  intro _ host₄ hconnect
  unfold connect at hconnect
  obtain ⟨c, host₁, hopen, hconnect⟩ := bind_eq_ok_iff.1 hconnect
  obtain ⟨rfl, tree, rfl, hopened⟩ := gives_opened hhost hp _ _ hopen
  rw [bind_modify] at hconnect
  obtain ⟨content, hget, hcontent⟩ := hopened.exists_file
  -- Only a database that was there before has tables by now.
  have hroom : ∀ tables, tree.get? p.place = some (.file (.database tables)) →
      hasJournalName p.place = true := by
    intro tables htables
    rw [hget] at htables
    cases htables
    rcases hcontent with hempty | hold
    · cases hempty
    · exact hjournals _ _ hold
  obtain ⟨_, host₃, hmake, hlog⟩ := bind_eq_ok_iff.1 hconnect
  obtain ⟨hjournal, hmade⟩ := gives_makeTables rfl hroom _ _ hmake
  obtain ⟨hsame₃, hconnection₃, hgrown₃⟩ : host.SameOutside host₃ ∧
      host₃.connection = some { storage := .file p.place } ∧
      Tree.Grown (Eq p.place) tree host₃.tree := by
    rcases hmade with rfl | rfl
    · exact ⟨⟨rfl, rfl, rfl, rfl⟩, rfl, .refl hopened.isPlain hopened.isClosed⟩
    · exact ⟨⟨rfl, rfl, rfl, rfl⟩, rfl,
        Tree.grown_put_over hopened.isPlain hopened.isClosed hp.isProper_place hget _⟩
  obtain ⟨host₄', hlog', hsame₄, htree₄, hconnection₄⟩ :=
    Act.log_of_logFile_eq (hsame₃.logFile_eq.trans hhost.logFile_eq) .debug channel
      ("Graph DB connected at " ++ p.text)
  cases hlog.symm.trans hlog'
  exact ⟨tree, hsame₃.trans hsame₄, hconnection₄.trans hconnection₃, hjournal, hopened,
    htree₄.symm ▸ hgrown₃⟩

/-- A database that a graph was saved to can be found again, and nothing else has been changed but
for the folders that were made. -/
theorem gives_session_save (written : Place → Prop) (hhost : host.IsPlain) (hp : p.IsGrounded)
    (hwritten : written p.place) (hjournals : HasJournals host.tree) (g : ImportGraph) :
    Gives (session p true (save g)) host fun _ host' => host.SameOutside host' ∧
      Tree.Grown written host.tree host'.tree ∧ IsSaved host'.tree p ∧
      g.FitsTables := by
  refine gives_session.mono fun _ host' h => ?_
  obtain ⟨host₁, host₂, hconnect, hsave, rfl⟩ := h
  obtain ⟨tree, hsame, hconnection, hjournal, hopened, hgrown⟩ :=
    gives_connect hhost hp hjournals _ _ hconnect
  obtain ⟨hfits, t, -, rfl⟩ := gives_save g hconnection _ _ hsave
  obtain ⟨content, hget, -⟩ := hopened.exists_file
  obtain ⟨content₁, hget₁⟩ := hgrown.get?_file hget
  -- The rows go into the file that was opened, so nothing new is written beside it.
  have hgrown' := hgrown.trans
    (Tree.grown_put_over hgrown.isPlain hgrown.isClosed hp.isProper_place hget₁
      (.database (t.withRows g.files g.edges)))
  have hsame' : host.SameOutside
      { stored host₁ p.place (t.withRows g.files g.edges) with connection := none } :=
    hsame.trans ⟨rfl, rfl, rfl, rfl⟩
  exact ⟨hsame', hopened.grown hp hwritten hgrown',
    ⟨hopened.isWritten.grown hgrown', hjournal, hopened.exists_placeOf?⟩, hfits⟩

/-! ## Saving again -/

/-- A free place in a folder is where a new database is stored. -/
theorem storageOf_of_free {tree : Tree Content} {here : Place} (hp : p.IsGrounded)
    (hplace : placeOf? tree here p.text = some p.place) (hfree : tree.get? p.place = none)
    (habove : tree.isFolder p.place.dropLast = true) :
    storageOf { path := p.text } tree here = .ok (.file p.place) := by
  unfold storageOf
  rw [isInMemory_of_isGrounded hp]
  simp only [hplace, hfree, habove, Address.modelFile?, Address.option?, List.find?_nil,
    Option.map_none, Bool.false_eq_true, ↓reduceIte, decide_true, Bool.and_self]
  rfl

/-- The folder of a database stays where it is when the file is taken away. -/
theorem makeFolders_erased (hhost : host.IsPlain) (hp : p.IsGrounded)
    (hwritten : host.tree.IsWritten p) :
    Act.makeFolders p.parent { host with tree := host.tree.erase p.place } =
      .ok () { host with tree := host.tree.erase p.place } := by
  obtain ⟨content, hget⟩ := hwritten.exists_file
  have herased := isPlain_erase hhost hget
  -- Taking the file away leaves all folders, those above it too.
  have hkept : ∀ place, host.tree.isFolder place = true →
      (host.tree.erase p.place).isFolder place = true := fun _ =>
    Tree.isFolder_erase (by rw [hget]; exact nofun)
  obtain ⟨hlong, hpasses, hplace, hfolder⟩ :=
    (hhost.isPlain.lookup_eq_ok_iff hhost.isClosed hp.parent).1
      (hwritten.lookup_parent hhost.isPlain hhost.isClosed hp host.folder)
  refine Act.makeFolders_of_lookup hwritten.parent_hasNul_eq
    ((herased.isPlain.lookup_eq_ok_iff herased.isClosed hp.parent).2
      ⟨hlong, hpasses.mono hkept, hplace, ?_⟩)
  exact Tree.isFolder_iff.1 (hkept _ (Tree.isFolder_iff.2 hfolder))

/-- Where the file was taken away, its path stands for the same place. -/
theorem storageOf_erased (hhost : host.IsPlain) (hp : p.IsGrounded) (h : IsSaved host.tree p) :
    storageOf { path := p.text } (host.tree.erase p.place) host.folder = .ok (.file p.place) := by
  obtain ⟨content, hget⟩ := h.isWritten.exists_file
  have herased := isPlain_erase hhost hget
  have hkept : ∀ place, host.tree.isFolder place = true →
      (host.tree.erase p.place).isFolder place = true := fun _ =>
    Tree.isFolder_erase (by rw [hget]; exact nofun)
  obtain ⟨t₀, here, hplain₀, hplace⟩ := h.exists_placeOf?
  -- The folder that held the database is there without it, too.
  have habove : host.tree.isFolder p.place.dropLast = true := by
    apply hhost.isClosed
    rw [hget]
    exact nofun
  exact storageOf_of_free hp (placeOf?_of_passes herased.isPlain herased.isClosed hp
    (h.isWritten.passes.mono hkept) hplain₀ hplace)
    (host.tree.get?_erase_self h.isWritten.place_ne_nil) (hkept _ habove)

/-- A database that is there is taken away and made anew. -/
theorem opened_of_isSaved (hhost : host.IsPlain) (hp : p.IsGrounded) (h : IsSaved host.tree p) :
    opened p true host = .ok { storage := .file p.place }
      { host with tree := (host.tree.erase p.place).put p.place (.file (.bytes [])) } := by
  have hremove := removeFile_of_isWritten hhost hp h.isWritten
  have hfolder := makeFolders_erased hhost hp h.isWritten
  have hstorage := storageOf_erased hhost hp h
  have hplant : Storage.plant (host.tree.erase p.place) (.file p.place) =
      (host.tree.erase p.place).put p.place (.file (.bytes [])) := by
    rw [Storage.plant, host.tree.get?_erase_self h.isWritten.place_ne_nil]
    rfl
  unfold opened
  dsimp only
  -- The old file is removed, the folder is there, and the empty file takes the old place.
  rw [if_pos rfl, bind_of_ok _ (tryCatch_of_ok _ (by
    rw [bind_of_ok _ (tryCatch_of_ok _ hremove)]
    exact hfolder)), bind_get]
  simp only [ofText_text_of_isGrounded hp, hstorage, hplant, Address.isReadOnly_of_path]
  rfl

/-- A file that was taken away and made anew has grown out of the old one, whatever it holds. -/
theorem grown_erase_put (hhost : host.IsPlain) (hp : p.IsGrounded) {content : Content}
    (hget : host.tree.get? p.place = some (.file content)) (content' : Content) :
    Tree.Grown (Eq p.place) host.tree
      ((host.tree.erase p.place).put p.place (.file content')) := by
  have hno : host.tree.get? p.place ≠ some .folder := by
    rw [hget]
    exact nofun
  have hroot := Tree.ne_nil_of_get?_ne_folder hno
  have herased := isPlain_erase hhost hget
  have hno' : (host.tree.erase p.place).get? p.place ≠ some .folder := by
    rw [host.tree.get?_erase_self hroot]
    exact nofun
  have habove : (host.tree.erase p.place).isFolder p.place.dropLast = true := by
    apply Tree.isFolder_erase hno
    apply hhost.isClosed
    rw [hget]
    exact nofun
  have hgrown := Tree.grown_put_file herased.isPlain herased.isClosed (rfl : p.place = p.place) hno'
    habove hp.isProper_place content'
  -- Erased and put again, the file is the only entry that differs.
  refine Tree.grown_of_get?_cases hgrown.isPlain hgrown.isClosed rfl hno hp.isProper_place
    ⟨_, Tree.get?_put_self _ hroot _⟩ fun other hne => .inl ?_
  rw [Tree.get?_put_of_ne _ (Ne.symm hne), Tree.get?_erase_of_ne _ (Ne.symm hne)]

/-- Connecting again makes the tables in a new file, which is logged. -/
theorem connect_again (hhost : host.IsPlain) (hp : p.IsGrounded) (h : IsSaved host.tree p) :
    ∃ host₁, connect p true host = .ok () host₁ ∧ host.SameOutside host₁ ∧
      host₁.connection = some { storage := .file p.place } ∧
      host₁.tree = (host.tree.erase p.place).put p.place (.file (.database .empty)) := by
  have hroot := h.isWritten.place_ne_nil
  have hopen := opened_of_isSaved hhost hp h
  generalize htree : (host.tree.erase p.place).put p.place (.file (.bytes [])) = tree at hopen
  have hempty : tree.get? p.place = some (.file (.bytes [])) := by
    rw [← htree]
    exact Tree.get?_put_self _ hroot _
  -- The empty file has no tables, so they are made.
  have hmake : makeTables { host with tree, connection := some { storage := .file p.place } } =
      .ok () (stored { host with tree } p.place .empty) :=
    makeTables_of_empty rfl hempty h.hasJournalName_eq
  obtain ⟨host₁, hlog, hsame₁, htree₁, hconnection₁⟩ := Act.log_of_logFile_eq
    (show (stored { host with tree } p.place .empty).logFile = none from hhost.logFile_eq) .debug
    channel ("Graph DB connected at " ++ p.text)
  have hstored : host.SameOutside (stored { host with tree } p.place .empty) := ⟨rfl, rfl, rfl, rfl⟩
  refine ⟨host₁, ?_, hstored.trans hsame₁, hconnection₁, ?_⟩
  · unfold connect
    rw [bind_of_ok _ hopen, bind_modify, bind_of_ok _ hmake]
    exact hlog
  · rw [htree₁, ← htree]
    exact Tree.put_put _ _ _ _

/-- A graph whose parts agree and that fits into tables is saved to a database that was there
before. -/
theorem session_save_again (hhost : host.IsPlain) (hp : p.IsGrounded) (h : IsSaved host.tree p)
    {g : ImportGraph} (hg : g.Consistent) (hfits : g.FitsTables) :
    ∃ host', session p true (save g) host = .ok () host' ∧ host.SameOutside host' ∧
      Tree.Grown (Eq p.place) host.tree host'.tree := by
  obtain ⟨content, hget⟩ := h.isWritten.exists_file
  have hroot := h.isWritten.place_ne_nil
  obtain ⟨host₁, hconnect, hsame₁, hconnection₁, htree₁⟩ := connect_again hhost hp h
  have hget₁ : host₁.tree.get? p.place = some (.file (.database .empty)) := by
    rw [htree₁]
    exact Tree.get?_put_self _ hroot _
  have hfresh : IsFresh host₁ { storage := .file p.place } :=
    ⟨hconnection₁, rfl, rfl, by simp only [committed, hget₁]⟩
  obtain ⟨host₂, _, _, hsave, -⟩ := save_ok hg hfits hfresh
  obtain ⟨-, t', -, rfl⟩ := gives_save g hconnection₁ _ _ hsave
  refine ⟨_, session_of_ok hconnect hsave, hsame₁.trans ⟨rfl, rfl, rfl, rfl⟩, ?_⟩
  -- The tree that is left has the new tables at the place of the old file.
  have hleft : host₁.tree.put p.place (.file (.database (t'.withRows g.files g.edges))) =
      (host.tree.erase p.place).put p.place
        (.file (.database (t'.withRows g.files g.edges))) := by
    rw [htree₁, Tree.put_put]
  show Tree.Grown (Eq p.place) host.tree (host₁.tree.put p.place _)
  rw [hleft]
  exact grown_erase_put hhost hp hget _

end ImportAtlas.Store
