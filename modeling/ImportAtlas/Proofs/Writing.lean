import ImportAtlas.Proofs.Survey
import ImportAtlas.Proofs.Tree.Growth

/-!
# What acts write

On a host whose tree has no links, making folders and writing a file change what they are asked to
and nothing else. And what they have made they find again, so they can be done once more.

## Key results

- `Act.gives_makeFolders`, `Act.gives_writeBytes`: what is there afterwards
- `Act.makeFolders_of_lookup`, `Act.writeBytes_of_isWritten`: what is there already does no harm
-/

namespace ImportAtlas

open EStateM

/-- A host whose tree is sound and has no links, and that writes no log file. -/
structure Host.IsPlain (host : Host) : Prop where
  folder : host.folder.IsProper
  isPlain : host.tree.IsPlain
  isClosed : host.tree.IsClosed
  isProper : host.tree.IsProper
  logFile_eq : host.logFile = none

namespace Host.IsPlain

variable {host host' : Host}

/-- A plain host has no log file that could be missing. -/
theorem hasLogFile (h : host.IsPlain) : host.HasLogFile := by
  intro file hfile
  rw [h.logFile_eq] at hfile
  cases hfile

/-- A tree that grows stays sound. -/
theorem with_tree (h : host.IsPlain) {written : Place → Prop} {tree : Tree Content}
    (hgrown : Tree.Grown written host.tree tree) : Host.IsPlain { host with tree } :=
  ⟨h.folder, hgrown.isPlain, hgrown.isClosed, hgrown.isProper h.isProper, h.logFile_eq⟩

end Host.IsPlain

/-- Nothing has changed but for the tree, the records of the log and the connection. -/
structure Host.SameOutside (host host' : Host) : Prop where
  folder_eq : host'.folder = host.folder
  logFile_eq : host'.logFile = host.logFile
  calls_eq : host'.calls = host.calls
  replies_eq : host'.replies = host.replies

namespace Host.SameOutside

variable {host host' host'' : Host}

/-- What is outside the tree is what it is. -/
theorem refl (host : Host) : host.SameOutside host :=
  ⟨rfl, rfl, rfl, rfl⟩

/-- What stays the same twice stays the same. -/
theorem trans (h : host.SameOutside host') (h' : host'.SameOutside host'') :
    host.SameOutside host'' :=
  ⟨h'.folder_eq.trans h.folder_eq, h'.logFile_eq.trans h.logFile_eq, h'.calls_eq.trans h.calls_eq,
    h'.replies_eq.trans h.replies_eq⟩

end Host.SameOutside

/-- A plain host is one when its tree has grown. -/
theorem Host.IsPlain.of_grown {host host' : Host} {written : Place → Prop} (h : host.IsPlain)
    (hsame : host.SameOutside host') (hgrown : Tree.Grown written host.tree host'.tree) :
    host'.IsPlain :=
  ⟨hsame.folder_eq ▸ h.folder, hgrown.isPlain, hgrown.isClosed,
    hgrown.isProper h.isProper, hsame.logFile_eq.trans h.logFile_eq⟩

/-- Without a log file nothing outside the records is changed by logging. -/
theorem Act.log_of_logFile_eq {host : Host} (hlog : host.logFile = none) (level : LogLevel)
    (channel message : String) : ∃ host', Act.log level channel message host = .ok () host' ∧
      host.SameOutside host' ∧ host'.tree = host.tree ∧ host'.connection = host.connection := by
  obtain ⟨records, hrun⟩ := Host.log_of_unlogged hlog level channel message
  exact ⟨_, hrun, ⟨rfl, rfl, rfl, rfl⟩, rfl, rfl⟩

namespace Tree

variable {α : Type} {t : Tree α}

/-- A free place that names lead to lies in a folder. -/
theorem Passes.isFolder_dropLast {here : Place} {names : List String}
    (hpasses : t.Passes here names) (hclosed : t.IsClosed) (hhere : t.get? here ≠ none)
    (hfree : t.get? (here.go names) = none) : t.isFolder (here.go names).dropLast = true := by
  rcases List.eq_nil_or_concat names with rfl | ⟨front, n, rfl⟩
  · exact absurd hfree hhere
  · rw [List.concat_eq_append] at hpasses hfree ⊢
    obtain ⟨-, hfolder, -⟩ := passes_append.1 hpasses
    rw [Place.go_append] at hfree ⊢
    -- After `..` the place would be a folder, and it is free.
    by_cases hup : n = ".."
    · subst hup
      have habove := hclosed.isFolder_dropLast hfolder
      rw [show (here.go front).go [".."] = (here.go front).dropLast from rfl] at hfree
      rw [isFolder_iff, hfree] at habove
      cases habove
    · rw [Place.go_down _ hup]
      show t.isFolder ((here.go front) ++ [n]).dropLast = true
      rwa [List.dropLast_concat]

/-- Without links, the folder that is made stands where the names lead, and nothing else is new. -/
theorem grown_makeFolder {t t' : Tree Content} {here : Place} {p : Path} (written : Place → Prop)
    (hplain : t.IsPlain) (hclosed : t.IsClosed) (hp : p.IsGrounded)
    (hmake : t.makeFolder here p.text = .ok t') :
    Tree.Grown written t t' ∧ t'.lookup here p.text = .ok (p.place, .folder) := by
  unfold makeFolder at hmake
  split at hmake
  · rename_i place hlocate
    cases hmake
    obtain ⟨hlong, hpasses, hspot⟩ := (hplain.locate_eq_ok_iff hclosed hp).1 hlocate
    obtain ⟨rfl, hfree⟩ := vacant_eq_spotAt_iff.1 hspot
    have hroot : t.get? [] ≠ none := by
      rw [get?_nil]
      simp
    -- The place is free and the folder above is there, since the way passes through it.
    have hgrown : Tree.Grown written t (t.put p.place .folder) :=
      grown_put_folder hplain hclosed hfree
        (hpasses.isFolder_dropLast hclosed hroot hfree) hp.isProper_place
        (hp.isShort_place hlong hpasses.isLongName_eq)
    refine ⟨hgrown, (hgrown.isPlain.lookup_eq_ok_iff hgrown.isClosed hp).2
      ⟨hlong, hpasses.mono fun _ => hgrown.isFolder, rfl, ?_⟩⟩
    apply get?_put_self
    apply ne_nil_of_get?_ne_folder (t := t)
    rw [hfree]
    exact nofun
  · cases hmake
  · cases hmake

end Tree

/-- A path leads to a file, and the path of the folder above leads there too. -/
structure Tree.IsWritten (t : Tree Content) (p : Path) : Prop where
  hasNul_eq : Act.hasNul p.text = false
  parent_hasNul_eq : Act.hasNul p.parent.text = false
  isLongPath_eq : isLongPath p.text = false
  parent_isLongPath_eq : isLongPath p.parent.text = false
  passes : t.Passes [] p.names
  isFolder_parent : t.isFolder p.parent.place = true
  exists_file : ∃ content, t.get? p.place = some (.file content)

namespace Tree.IsWritten

variable {written : Place → Prop} {t t' : Tree Content} {p : Path}

/-- What was written is still there when more is written. -/
theorem grown (h : t.IsWritten p) (hgrown : Tree.Grown written t t') : t'.IsWritten p where
  hasNul_eq := h.hasNul_eq
  parent_hasNul_eq := h.parent_hasNul_eq
  isLongPath_eq := h.isLongPath_eq
  parent_isLongPath_eq := h.parent_isLongPath_eq
  passes := h.passes.mono fun _ => hgrown.isFolder
  isFolder_parent := hgrown.isFolder h.isFolder_parent
  exists_file := by
    obtain ⟨content, hget⟩ := h.exists_file
    exact hgrown.get?_file hget

/-- A file that can be written is not the root. -/
theorem place_ne_nil (h : t.IsWritten p) : p.place ≠ [] := by
  obtain ⟨content, hget⟩ := h.exists_file
  apply Tree.ne_nil_of_get?_ne_folder
  rw [hget]
  exact nofun

/-- The folder that it is written in is found. -/
theorem lookup_parent (h : t.IsWritten p) (hplain : t.IsPlain) (hclosed : t.IsClosed)
    (hp : p.IsGrounded) (here : Place) :
    t.lookup here p.parent.text = .ok (p.parent.place, .folder) := by
  refine (hplain.lookup_eq_ok_iff hclosed hp.parent).2
    ⟨h.parent_isLongPath_eq, ?_, rfl, Tree.isFolder_iff.1 h.isFolder_parent⟩
  -- The names of the folder are the first of those that are passed.
  have hpasses := h.passes
  rcases List.eq_nil_or_concat p.names with hnil | ⟨front, n, hnames⟩
  · rw [Path.parent, hnil]
    trivial
  · rw [hnames, List.concat_eq_append] at hpasses
    rw [Path.parent, hnames, List.concat_eq_append, List.dropLast_concat]
    exact (Tree.passes_append.1 hpasses).1

end Tree.IsWritten

namespace Act

variable {host host' : Host} {p : Path} {path : String}

/-- A change is refused for a NUL in its path, or by the tree. -/
theorem fails_change {act : Tree Content → Place → String → Except AccessFault (Tree Content)} :
    Fails (change path act) host fun e host' => host' = host ∧ (e = .nul ∧ hasNul path = true ∨
      hasNul path = false ∧ ∃ fault, e = .access fault path ∧
        act host.tree host.folder path = .error fault) := by
  intro e host' h
  unfold change at h
  cases hnul : hasNul path with
  | true =>
    rw [bind_of_error _ (Host.ask_of_hasNul hnul act)] at h
    cases h
    exact ⟨rfl, .inl ⟨rfl, rfl⟩⟩
  | false =>
    -- Without a NUL the change is left to the tree.
    have hask := Host.ask_of_not_hasNul host hnul act
    cases hact : act host.tree host.folder path with
    | ok tree =>
      rw [hact] at hask
      rw [bind_of_ok _ hask] at h
      cases h
    | error fault =>
      rw [hact] at hask
      rw [bind_of_error _ hask] at h
      cases h
      exact ⟨rfl, .inr ⟨rfl, fault, rfl, rfl⟩⟩

/-- If it is made, the tree has made it. -/
theorem gives_change {act : Tree Content → Place → String → Except AccessFault (Tree Content)} :
    Gives (change path act) host fun _ host' => ∃ tree, host' = { host with tree } ∧
      hasNul path = false ∧ act host.tree host.folder path = .ok tree := by
  unfold change
  refine (gives_ask path act).bind fun tree host' hasked => ?_
  obtain ⟨hnul, hact, rfl⟩ := hasked
  rintro _ _ ⟨⟩
  exact ⟨tree, rfl, hnul, hact⟩

/-- What the tree can do is done. -/
theorem change_of_ok {act : Tree Content → Place → String → Except AccessFault (Tree Content)}
    {tree : Tree Content} (hnul : hasNul path = false)
    (hact : act host.tree host.folder path = .ok tree) :
    change path act host = .ok () { host with tree } := by
  unfold change
  have hask := Host.ask_of_not_hasNul host hnul act
  rw [hact] at hask
  -- The tree is asked what the change makes of it, and is replaced by that.
  rw [bind_of_ok _ hask]
  rfl

/-! ## Folders -/

/-- Where no folder can be made, nothing has changed. -/
theorem fails_makeFolder : Fails (makeFolder path) host fun _ host' => host' = host := by
  unfold makeFolder
  refine Fails.tryCatch fun e host' hchange => ?_
  obtain ⟨rfl, -⟩ := fails_change _ _ hchange
  split
  · -- A folder that is there already is no failure.
    have hasked : Fails (isFolder path) host' fun _ host'' => host'' = host' :=
      (fails_isFolder path).mono fun _ _ h => h.1
    refine hasked.bind (gives_isFolder path) fun b host'' h => ?_
    split
    · exact fails_throw h.1
    · exact fails_pure _
  · exact fails_throw rfl

/-- A folder that was made is there, and nothing else has changed. -/
theorem gives_makeFolder (written : Place → Prop) (hhost : host.IsPlain) (hp : p.IsGrounded) :
    Gives (makeFolder p.text) host fun _ host' => ∃ tree, host' = { host with tree } ∧
      Tree.Grown written host.tree tree ∧ hasNul p.text = false ∧
      tree.lookup host.folder p.text = .ok (p.place, .folder) := by
  unfold makeFolder
  refine Gives.tryCatch (gives_change.mono fun _ host' h => ?_) fun e host' hchange => ?_
  · obtain ⟨tree, rfl, hnul, hmake⟩ := h
    obtain ⟨hgrown, hlookup⟩ :=
      Tree.grown_makeFolder written hhost.isPlain hhost.isClosed hp hmake
    exact ⟨tree, rfl, hgrown, hnul, hlookup⟩
  · -- Where none can be made there may be one already.
    obtain ⟨rfl, -⟩ := fails_change _ _ hchange
    split
    · refine (gives_isFolder p.text).bind fun b host'' h => ?_
      obtain ⟨rfl, hfolder⟩ := h
      split
      · exact gives_throw _
      · rename_i hthere
        simp only [Bool.or_eq_true, Bool.not_eq_true', not_or, Bool.not_eq_false] at hthere
        obtain ⟨hnul, place, hlookup⟩ := hfolder hthere.2
        have hplace := ((hhost.isPlain.lookup_eq_ok_iff hhost.isClosed hp).1 hlookup).2.2.1
        exact gives_pure ⟨_, rfl, (.refl hhost.isPlain hhost.isClosed), hnul, hplace ▸ hlookup⟩
    · exact gives_throw _

/-- A folder that is there already is left alone. -/
theorem makeFolder_of_lookup (hnul : hasNul path = false) {folder : Place}
    (hlookup : host.tree.lookup host.folder path = .ok (folder, .folder)) :
    makeFolder path host = .ok () host := by
  obtain ⟨hempty, hlong, hwalk⟩ := Tree.locate_eq_ok_iff.1 (Tree.lookup_eq_ok_iff.1 hlookup)
  obtain ⟨place, entry, hkept⟩ := Tree.exists_walk_kept hwalk
  have hlocate : host.tree.locate host.folder .kept path = .ok (.present place entry) :=
    Tree.locate_eq_ok_iff.2 ⟨hempty, hlong, hkept⟩
  have hask := Host.ask_of_not_hasNul host hnul Tree.makeFolder
  rw [Tree.makeFolder, hlocate] at hask
  -- Something is there, so making it fails; that it is a folder is what settles it.
  have hchange : change path Tree.makeFolder host = .error (.access .occupied path) host :=
    bind_of_error _ hask
  have hfolder : isFolder path host = .ok true host :=
    bind_of_ok _ (probe_of_lookup hnul hlookup)
  unfold makeFolder
  rw [tryCatch_of_error _ hchange]
  exact bind_of_ok _ hfolder

/-- Folders that were made are there, and nothing else has changed. -/
theorem gives_makeFolders (written : Place → Prop) (hhost : host.IsPlain) (hp : p.IsGrounded) :
    Gives (makeFolders p) host fun _ host' => ∃ tree, host' = { host with tree } ∧
      Tree.Grown written host.tree tree ∧ hasNul p.text = false ∧
      tree.lookup host.folder p.text = .ok (p.place, .folder) := by
  induction hlen : p.names.length using Nat.strong_induction_on generalizing p host with
  | _ len ih =>
    unfold makeFolders
    refine Gives.tryCatch (gives_makeFolder written hhost hp) fun e host' herror => ?_
    obtain rfl := fails_makeFolder _ _ herror
    split
    · split
      · exact gives_throw _
      · rename_i hnames
        have hshorter : p.parent.names.length < len := by
          have := List.length_pos_iff.2 hnames
          simp only [Path.parent, List.length_dropLast]
          omega
        -- The folders above are made first, and then the one that is wanted.
        refine (ih _ hshorter hhost hp.parent rfl).bind fun _ host₁ h₁ => ?_
        obtain ⟨tree₁, rfl, hgrown₁, -, -⟩ := h₁
        refine (gives_makeFolder written (hhost.with_tree hgrown₁) hp).mono fun _ host₂ h₂ => ?_
        obtain ⟨tree₂, rfl, hgrown₂, hnul, hlookup⟩ := h₂
        exact ⟨tree₂, rfl, hgrown₁.trans hgrown₂, hnul, hlookup⟩
    · exact gives_throw _

/-- Folders that are there need not be made. -/
theorem makeFolders_of_lookup (hnul : hasNul p.text = false) {folder : Place}
    (hlookup : host.tree.lookup host.folder p.text = .ok (folder, .folder)) :
    makeFolders p host = .ok () host := by
  unfold makeFolders
  exact tryCatch_of_ok _ (makeFolder_of_lookup hnul hlookup)

/-! ## Files -/

/-- Without links, what can be written to is a free place or a file. -/
theorem writeFile_eq_put {t t' : Tree Content} {here : Place} (hplain : t.IsPlain)
    (hclosed : t.IsClosed) (hp : p.IsGrounded) {content : Content}
    (h : t.writeFile here p.text content = .ok t') :
    isLongPath p.text = false ∧ t.Passes [] p.names ∧ t.get? p.place ≠ some .folder ∧
      t' = t.put p.place (.file content) := by
  obtain ⟨place, hplace, rfl⟩ := Tree.writeFile_eq_ok_iff.1 h
  -- In a tree without links a path leads to the place its names say.
  have hspotAt {spot : Spot Content} (hlocate : t.locate here .made p.text = .ok spot) :=
    (hplain.locate_eq_ok_iff hclosed hp).1 hlocate
  obtain hlocate | ⟨content', hlocate⟩ := Tree.locate_of_filePlace hplace
  · obtain ⟨hlong, hpasses, hspot⟩ := hspotAt hlocate
    obtain ⟨rfl, hfree⟩ := Tree.vacant_eq_spotAt_iff.1 hspot
    exact ⟨hlong, hpasses, by rw [hfree]; exact nofun, rfl⟩
  · obtain ⟨hlong, hpasses, hspot⟩ := hspotAt hlocate
    obtain ⟨rfl, hget⟩ := Tree.present_eq_spotAt_iff.1 hspot
    exact ⟨hlong, hpasses, by rw [hget]; exact nofun, rfl⟩

/-- A file is written into its folder, which is made if it is missing. -/
theorem gives_writeBytes (written : Place → Prop) (hhost : host.IsPlain) (hp : p.IsGrounded)
    (hwritten : written p.place) (bs : List UInt8) :
    Gives (writeBytes p bs) host fun _ host' => ∃ tree, host' = { host with tree } ∧
      Tree.Grown written host.tree tree ∧ tree.IsWritten p ∧
      tree.get? p.place = some (.file (.bytes bs)) := by
  unfold writeBytes
  refine (gives_makeFolders written hhost hp.parent).bind fun _ host₁ h₁ => ?_
  obtain ⟨tree₁, rfl, hgrown₁, hnul₁, hlookup₁⟩ := h₁
  have hhost₁ := hhost.with_tree hgrown₁
  obtain ⟨hlong₁, -, -, hget₁⟩ :=
    (hhost₁.isPlain.lookup_eq_ok_iff hhost₁.isClosed hp.parent).1 hlookup₁
  refine gives_change.mono fun _ host₂ h₂ => ?_
  obtain ⟨tree₂, rfl, hnul, hwrite⟩ := h₂
  obtain ⟨hlong, hpasses, hno, rfl⟩ :=
    writeFile_eq_put hhost₁.isPlain hhost₁.isClosed hp hwrite
  -- The folder above was passed, or it is above a file that was there.
  have habove : tree₁.isFolder p.place.dropLast = true := by
    cases hget : tree₁.get? p.place with
    | none =>
      have hroot : tree₁.get? [] ≠ none := by
        rw [Tree.get?_nil]
        simp
      exact hpasses.isFolder_dropLast hhost₁.isClosed hroot hget
    | some entry => exact hhost₁.isClosed _ (by rw [hget]; simp)
  -- The file is the one place that is written; the rest was made on the way.
  have hgrown₂ : Tree.Grown written tree₁ (tree₁.put p.place (.file (.bytes bs))) :=
    Tree.grown_put_file hhost₁.isPlain hhost₁.isClosed hwritten hno habove hp.isProper_place _
  have hget := tree₁.get?_put_self (Tree.ne_nil_of_get?_ne_folder hno) (.file (.bytes bs))
  exact ⟨_, rfl, hgrown₁.trans hgrown₂, ⟨hnul, hnul₁, hlong, hlong₁,
    hpasses.mono fun _ => hgrown₂.isFolder, hgrown₂.isFolder (Tree.isFolder_iff.2 hget₁),
    _, hget⟩, hget⟩

/-- In a folder that is there, a file is put at the place that its path leads to. -/
theorem writeBytes_of_filePlace (hmade : makeFolders p.parent host = .ok () host)
    (hnul : hasNul p.text = false) {place : Place}
    (hplace : host.tree.filePlace host.folder p.text = .ok place) (bs : List UInt8) :
    writeBytes p bs host =
      .ok () { host with tree := host.tree.put place (.file (.bytes bs)) } := by
  unfold writeBytes
  rw [bind_of_ok _ hmade]
  -- The folders are there, so only the file changes.
  apply change_of_ok hnul
  rw [Tree.writeFile, hplace]
  rfl

/-- A file that was written is written again. -/
theorem writeBytes_of_isWritten (hhost : host.IsPlain) (hp : p.IsGrounded)
    (hwritten : host.tree.IsWritten p) (bs : List UInt8) :
    writeBytes p bs host =
      .ok () { host with tree := host.tree.put p.place (.file (.bytes bs)) } := by
  obtain ⟨content, hget⟩ := hwritten.exists_file
  -- The folder above is there, so making it changes nothing.
  have hfolder : makeFolders p.parent host = .ok () host :=
    makeFolders_of_lookup hwritten.parent_hasNul_eq
      (hwritten.lookup_parent hhost.isPlain hhost.isClosed hp _)
  have hlocate : host.tree.locate host.folder .made p.text =
      .ok (.present p.place (.file content)) :=
    (hhost.isPlain.locate_eq_ok_iff hhost.isClosed hp).2
      ⟨hwritten.isLongPath_eq, hwritten.passes, (Tree.spotAt_of_get? hget).symm⟩
  exact writeBytes_of_filePlace hfolder hwritten.hasNul_eq (by rw [Tree.filePlace, hlocate]) bs

end Act

end ImportAtlas
