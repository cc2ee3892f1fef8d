import ImportAtlas.Proofs.List
import ImportAtlas.Proofs.Store.Load
import ImportAtlas.Proofs.Writing

/-!
# How opening a database ends

A database is opened at any path, on any host. Either it is open and has its tables, and unless it
is opened fresh the tables of all databases are as they were; or a reason is reported together with
the path, and there is no connection. But the connection is made before the tables are looked for:
a file of something else, and a database without tables that none can be put into, leave it open,
and the fault of the database is not reported as a failure. A NUL in the path of a fresh database
is not reported either.

## Key results

- `Store.connect_ends`: the ways in which opening a database ends
- `Store.connect_foreign`: a file of something else is opened, and the fault gets out
-/

namespace ImportAtlas

open EStateM

/-! ## The place of a database -/

namespace Tree

variable {α : Type} {t : Tree α} {here place : Place} {content : α}

/-- Making a folder keeps all files, and makes none. -/
theorem get?_makeFolder {t' : Tree α} {path : String} (h : t.makeFolder here path = .ok t')
    (place : Place) (content : α) :
    t'.get? place = some (.file content) ↔ t.get? place = some (.file content) := by
  unfold makeFolder at h
  split at h
  · rename_i free hlocate
    cases h
    have hwalk := walk_of_locate hlocate
    -- The new folder took a place where nothing was, so no file is gained or lost.
    by_cases hplace : free = place
    · subst hplace
      rw [get?_put_self _ (ne_nil_of_walk hwalk), get?_of_walk_vacant hwalk]
      simp
    · rw [get?_put_of_ne _ hplace]
  · cases h
  · cases h

/-- Taking a file away makes none. -/
theorem get?_of_removeFile {t' : Tree α} {path : String} (h : t.removeFile here path = .ok t')
    (hget : t'.get? place = some (.file content)) : t.get? place = some (.file content) := by
  have hroot : place ≠ [] := by
    rintro rfl
    rw [get?_nil] at hget
    cases hget
  unfold removeFile at h
  split at h
  · cases h
  · rename_i gone entry hfolder hlocate
    cases h
    -- What is left at a place was there before, for only the one entry is gone.
    by_cases hplace : gone = place
    · subst hplace
      rw [get?_erase_self _ hroot] at hget
      cases hget
    · rwa [get?_erase_of_ne _ hplace] at hget
  · cases h
  · cases h

end Tree

/-- A host before and after the place of a database is prepared. Files are taken away only if the
database is to be fresh, and the only file that may be new is one of no bytes. -/
structure Host.Readied (fresh : Bool) (host host' : Host) : Prop where
  connection_eq : host'.connection = host.connection
  printed_eq : host'.printed = host.printed
  file_of : ∀ place content, host'.tree.get? place = some (.file content) →
    content = .bytes [] ∨ host.tree.get? place = some (.file content)
  file_kept : fresh = false → ∀ place content, host.tree.get? place = some (.file content) →
    host'.tree.get? place = some (.file content)

namespace Host.Readied

variable {fresh : Bool} {host host' host'' : Host}

/-- A host may be ready as it is. -/
theorem refl (host : Host) : host.Readied fresh host :=
  ⟨rfl, rfl, fun _ _ h => .inr h, fun _ _ _ h => h⟩

/-- What makes a host ready in two steps makes it ready. -/
theorem trans (h : host.Readied fresh host') (h' : host'.Readied fresh host'') :
    host.Readied fresh host'' where
  connection_eq := h'.connection_eq.trans h.connection_eq
  printed_eq := h'.printed_eq.trans h.printed_eq
  file_of place content hget := (h'.file_of place content hget).elim .inl (h.file_of place content)
  file_kept hfresh place content hget :=
    h'.file_kept hfresh place content (h.file_kept hfresh place content hget)

end Host.Readied

namespace Act

variable {host : Host} {fresh : Bool} {path : String} {p : Path}

/-- What can be wrong with a path: it leads nowhere, or it has a NUL. -/
def IsPathError (path : String) (e : Error) : Prop :=
  (∃ fault text, e = .access fault text) ∨ e = .nul ∧ hasNul path = true

/-- A change of the tree is made, or it is refused with nothing changed. -/
theorem ends_change {act : Tree Content → Place → String → Except AccessFault (Tree Content)}
    (hact : ∀ tree, act host.tree host.folder path = .ok tree →
      host.Readied fresh { host with tree }) :
    Ends (change path act) host (fun _ host' => host.Readied fresh host')
      fun e host' => host' = host ∧ IsPathError path e := by
  refine ends_iff.2 ⟨gives_change.mono ?_, fails_change.mono ?_⟩
  · rintro _ _ ⟨tree, rfl, -, htree⟩
    exact hact tree htree
  · rintro e _ ⟨rfl, hnul | ⟨-, fault, hfault, -⟩⟩
    · exact ⟨rfl, .inr hnul⟩
    · exact ⟨rfl, .inl ⟨fault, path, hfault⟩⟩

/-- So is a folder. -/
theorem ends_makeFolder : Ends (makeFolder path) host (fun _ host' => host.Readied fresh host')
    fun e host' => host' = host ∧ IsPathError path e := by
  have hchange : Ends (change path Tree.makeFolder) host (fun _ host' => host.Readied fresh host')
      fun e host' => host' = host ∧ IsPathError path e := by
    refine ends_change fun tree hmake => ⟨rfl, rfl, fun place content hget => .inr ?_,
      fun _ place content hget => ?_⟩
    · exact (Tree.get?_makeFolder hmake place content).1 hget
    · exact (Tree.get?_makeFolder hmake place content).2 hget
  unfold makeFolder
  refine hchange.tryCatch ?_
  rintro e host' ⟨rfl, herror⟩
  split
  · rename_i fault text
    -- Whether a folder is there already is a question, which changes nothing.
    have hasked : Ends (isFolder path) host' (fun _ host'' => host'' = host')
        fun e host'' => host'' = host' ∧ IsPathError path e :=
      ends_iff.2 ⟨(gives_isFolder path).mono fun _ _ h => h.1,
        (fails_isFolder path).mono fun _ _ h => ⟨h.1, .inl ⟨_, _, h.2⟩⟩⟩
    refine hasked.bind ?_
    rintro b host' rfl
    split
    · exact ends_throw ⟨rfl, .inl ⟨_, _, rfl⟩⟩
    · exact ends_pure (.refl _)
  · exact ends_throw ⟨rfl, herror⟩

end Act

/-- A path has a NUL just if one of its names has one. -/
theorem Path.hasNul_text_iff {p : Path} :
    Act.hasNul p.text = true ↔ ∃ n ∈ p.names, '\x00' ∈ n.toList := by
  unfold Act.hasNul
  rw [List.contains_iff_mem, text]
  split
  · rename_i hnames
    rw [hnames.2]
    exact iff_of_false (by decide) (by simp)
  · -- Neither an anchor nor a separator has a NUL in it.
    have hanchor : '\x00' ∉ p.anchor.text.toList := by
      cases p.anchor <;> decide
    rw [String.toList_append, String.toList_ofList, List.mem_append, or_iff_right hanchor,
      List.mem_intercalate_iff (by decide)]
    simp

/-- The path of a folder above has a NUL only if the path itself has one. -/
theorem Path.hasNul_of_parent {p : Path} (h : Act.hasNul p.parent.text = true) :
    Act.hasNul p.text = true := by
  obtain ⟨n, hn, hnul⟩ := hasNul_text_iff.1 h
  exact hasNul_text_iff.2 ⟨n, p.names.dropLast_subset hn, hnul⟩

/-- Folders are made from the top down, until one is refused. -/
theorem Act.ends_makeFolders {host : Host} {fresh : Bool} (p : Path) :
    Ends (makeFolders p) host (fun _ host' => host.Readied fresh host')
      fun e host' => host.Readied fresh host' ∧ IsPathError p.text e := by
  induction hlen : p.names.length using Nat.strong_induction_on generalizing p host with
  | _ len ih =>
    unfold makeFolders
    refine ends_makeFolder.tryCatch ?_
    rintro e host' ⟨rfl, herror⟩
    split
    · split
      · exact ends_throw ⟨.refl _, .inl ⟨_, _, rfl⟩⟩
      · rename_i hnames
        have hshorter : p.parent.names.length < len := by
          have := List.length_pos_iff.2 hnames
          simp only [Path.parent, List.length_dropLast]
          omega
        -- The folders above come first. What is wrong with their path is wrong with this one.
        refine Ends.bind ((ih _ hshorter p.parent rfl).mono (fun _ _ h => h)
          fun e host₁ h => ⟨h.1, ?_⟩) fun _ host₁ h₁ => ?_
        · exact h.2.imp_right fun h => ⟨h.1, Path.hasNul_of_parent h.2⟩
        · refine ends_makeFolder.mono (fun _ _ h => h₁.trans h) ?_
          rintro e _ ⟨rfl, herror⟩
          exact ⟨h₁, herror⟩
    · exact ends_throw ⟨.refl _, herror⟩

namespace Store

variable {host host' : Host} {path : Path} {fresh : Bool} {c : Connection} {fault : DatabaseFault}

/-- A storage that an address names has a place below the root. -/
theorem ne_nil_of_storageOf {a : Address} {t : Tree Content} {here place : Place}
    (h : storageOf a t here = .ok (.file place)) : place ≠ [] := by
  have hplaceOf : ∀ place, placeOf? t here a.path = some place → place ≠ [] := by
    intro place hplace
    obtain ⟨-, hsize⟩ := Option.filter_eq_some_iff.1 hplace
    simp only [Bool.and_eq_true, bne_iff_ne] at hsize
    exact hsize.1
  unfold storageOf at h
  split at h
  · cases h
  · split at h
    · rename_i place' hplace
      have hroot := hplaceOf place' hplace
      suffices hsame : place = place' by
        rwa [hsame]
      extract_lets finish at h
      -- Whatever else the address asks for, the file is the one that its path leads to.
      have hfinish : ∀ r, finish r = .ok (.file place) → place = place' := by
        intro r hr
        simp only [finish] at hr
        split at hr
        · cases hr
          rfl
        · cases hr
        · split at hr
          · cases hr
            rfl
          · cases hr
      split at h
      · split at h
        · cases h
        · exact hfinish () h
      · exact hfinish () h
    · cases h

/-- Only a file of no bytes is new when a storage is planted. -/
theorem readied_plant {storage : Storage} (hroot : ∀ place, storage = .file place → place ≠ []) :
    host.Readied fresh { host with tree := Storage.plant host.tree storage } := by
  cases storage with
  | memory tables => exact .refl host
  | file place =>
    unfold Storage.plant
    dsimp only
    split
    · -- The empty file stands where nothing was, so it hides no file that was there.
      rename_i hfree
      rw [Option.isNone_iff_eq_none] at hfree
      have hself := host.tree.get?_put_self (hroot place rfl) (.file (.bytes []))
      refine ⟨rfl, rfl, fun other content hget => ?_, fun _ other content hget => ?_⟩
      · by_cases hplace : place = other
        · subst hplace
          rw [hself] at hget
          cases hget
          exact .inl rfl
        · rw [Tree.get?_put_of_ne _ hplace] at hget
          exact .inr hget
      · by_cases hplace : place = other
        · subst hplace
          rw [hfree] at hget
          cases hget
        · rwa [Tree.get?_put_of_ne _ hplace]
    · exact .refl host

/-- The database cannot be opened for a reason that is reported with its path. -/
def IsRefusal (path : Path) (e : Error) : Prop :=
  ∃ reason, e = .failure (.store reason (some path.text))

/-- What can be wrong while the place of a database is prepared. -/
def IsUnready (path : Path) (fresh : Bool) (e : Error) : Prop :=
  IsRefusal path e ∨ e = .nul ∧ fresh = true ∧ Act.hasNul path.text = true

/-- What stood at the path of a fresh database is taken away; it may be missing. -/
theorem ends_clear : Ends (tryCatch (Act.removeFile path.text) fun
      | .access .missing _ => pure ()
      | e => throw e) host (fun _ host' => host.Readied true host')
    fun e host' => host.Readied true host' ∧ Act.IsPathError path.text e := by
  have hremove : Ends (Act.removeFile path.text) host (fun _ host' => host.Readied true host')
      fun e host' => host' = host ∧ Act.IsPathError path.text e := by
    have hchange : Ends (Act.change path.text Tree.removeFile) host
        (fun _ host' => host.Readied true host')
        fun e host' => host' = host ∧ Act.IsPathError path.text e :=
      Act.ends_change fun tree hremove =>
        ⟨rfl, rfl, fun _ _ hget => .inr (Tree.get?_of_removeFile hremove hget), nofun⟩
    unfold Act.removeFile
    refine hchange.bind fun _ host' h => ?_
    exact ends_of_ok rfl ⟨h.connection_eq, h.printed_eq, h.file_of, nofun⟩
  refine hremove.tryCatch ?_
  -- A file that is missing need not be taken away.
  rintro e host' ⟨rfl, herror⟩
  split
  · exact ends_pure (.refl _)
  · exact ends_throw ⟨.refl _, herror⟩

/-- Prepares the place of a database: what a fresh one replaces is taken away, an old one has to be
there, and the folder above is made. -/
def makeRoom (path : Path) (fresh : Bool) : Act Unit := do
  if fresh then
    try Act.removeFile path.text catch
      | .access .missing _ => pure ()
      | e => throw e
  else if !(← Act.pathExists path.text) then
    Act.fail (.store "database does not exist" (some path.text))
  Act.makeFolders path.parent

/-- For a fresh database an earlier file is removed, or that is refused. -/
theorem ends_makeRoom_fresh : Ends (makeRoom path true) host
    (fun _ host' => host.Readied true host')
    fun e host' => host.Readied true host' ∧
      ((∃ fault text, e = .access fault text) ∨ IsUnready path true e) := by
  -- An error is one of the tree's own or comes from a NUL in the path.
  have hpath (e : Error) (h : Act.IsPathError path.text e) :
      (∃ fault text, e = .access fault text) ∨ IsUnready path true e :=
    h.imp_right fun h => .inr ⟨h.1, rfl, h.2⟩
  unfold makeRoom
  rw [if_pos rfl]
  refine Ends.bind (ends_clear.mono (fun _ _ h => h) fun e _ h => ⟨h.1, hpath e h.2⟩) ?_
  intro _ host₁ h₁
  refine (Act.ends_makeFolders path.parent).mono (fun _ _ h => h₁.trans h) fun e _ h => ?_
  exact ⟨h₁.trans h.1, hpath e (h.2.imp_right fun h => ⟨h.1, Path.hasNul_of_parent h.2⟩)⟩

/-- For an old one it is left, and only folders are made. -/
theorem ends_makeRoom_old : Ends (makeRoom path false) host
    (fun _ host' => host.Readied false host')
    fun e host' => host.Readied false host' ∧
      ((∃ fault text, e = .access fault text) ∨ IsUnready path false e) := by
  unfold makeRoom
  rw [if_neg Bool.false_ne_true]
  refine Ends.bind (Ends.mono (Act.asks_pathExists path.text) (fun _ _ h => h) ?_) ?_
  · rintro e _ ⟨rfl, rfl, -⟩
    exact ⟨.refl _, .inl ⟨_, _, rfl⟩⟩
  · rintro b host ⟨rfl, hnul⟩
    cases b with
    | false => exact ends_throw ⟨.refl _, .inr (.inl ⟨_, rfl⟩)⟩
    | true =>
      -- A path that leads somewhere has no NUL.
      refine (Act.ends_makeFolders path.parent).mono (fun _ _ h => h) fun e _ h => ⟨h.1, ?_⟩
      refine h.2.imp_right fun h => ?_
      rw [Path.hasNul_of_parent h.2] at hnul
      cases hnul rfl

/-- While the place of a database is prepared, a path may be found to be unusable, or the work is
refused. -/
theorem ends_ready : Ends (tryCatch (makeRoom path fresh) fun
      | .access fault text => Act.fail (.store (fault.text text) (some path.text))
      | e => throw e) host (fun _ host' => host.Readied fresh host')
    fun e host' => host.Readied fresh host' ∧ IsUnready path fresh e := by
  have hroom : Ends (makeRoom path fresh) host (fun _ host' => host.Readied fresh host')
      fun e host' => host.Readied fresh host' ∧
        ((∃ fault text, e = .access fault text) ∨ IsUnready path fresh e) := by
    cases fresh with
    | true => exact ends_makeRoom_fresh
    | false => exact ends_makeRoom_old
  refine hroom.tryCatch ?_
  rintro e host' ⟨hready, hcause⟩
  split
  · exact ends_throw ⟨hready, .inl ⟨_, rfl⟩⟩
  · rename_i hother
    refine ends_throw ⟨hready, hcause.resolve_left ?_⟩
    -- An access fault is what the first branch has caught.
    rintro ⟨fault, text, rfl⟩
    exact hother fault text rfl

/-- A connection is opened to a file, or to memory, or it is refused. -/
theorem ends_opened : Ends (opened path fresh) host
    (fun c host' => host.Readied fresh host' ∧ c.transaction = none ∧
      ∀ place, c.storage = .file place → place ≠ [])
    fun e host' => host.Readied fresh host' ∧ IsUnready path fresh e := by
  have hrefuse {α : Type} (reason : String) {P : α → Host → Prop} (host' : Host)
      (h : host.Readied fresh host') :
      Ends (Act.fail (.store reason (some path.text)) : Act α) host' P
        fun e host' => host.Readied fresh host' ∧ IsUnready path fresh e :=
    ends_throw ⟨h, .inl ⟨reason, rfl⟩⟩
  unfold opened
  refine Ends.bind ends_ready ?_
  intro _ host' hready
  refine ends_bind_get ?_
  split
  · exact hrefuse _ _ hready
  · split
    · exact hrefuse _ _ hready
    · rename_i storage hstorage
      -- A database is a file of the tree, which the root is not.
      have hroot : ∀ place, storage = .file place → place ≠ [] := by
        rintro place rfl
        exact ne_nil_of_storageOf hstorage
      exact ends_of_ok rfl ⟨hready.trans (readied_plant hroot), rfl, hroot⟩

/-! ## Tables of a connection -/

/-- The tables of all database files are kept. -/
def KeepsTables (t t' : Tree Content) : Prop :=
  ∀ place tables, t.get? place = some (.file (.database tables)) →
    t'.get? place = some (.file (.database tables))

/-- What is kept twice is kept. -/
theorem KeepsTables.trans {t t' t'' : Tree Content} (h : KeepsTables t t')
    (h' : KeepsTables t' t'') : KeepsTables t t'' :=
  fun place tables hget => h' place tables (h place tables hget)

/-- A log record is not put behind a database. -/
theorem keepsTables_appendTo (t : Tree Content) (place : Place) (text : String) :
    KeepsTables t (Act.appendTo t place text) := by
  intro other tables hget
  unfold Act.appendTo
  -- Nothing is appended to a database.
  by_cases hplace : place = other
  · subst hplace
    rw [hget]
    exact hget
  · split
    · exact hget
    · rwa [Tree.get?_put_of_ne _ hplace]
    · rwa [Tree.get?_put_of_ne _ hplace]

/-- Why a connection that is open has no tables. -/
inductive IsUnusable (t : Tree Content) (c : Connection) : DatabaseFault → Prop
  /-- The file holds something else. -/
  | notADatabase {place : Place} {b : UInt8} {bs : List UInt8} (hstorage : c.storage = .file place)
    (hget : t.get? place = some (.file (.bytes (b :: bs)))) : IsUnusable t c .notADatabase
  /-- There are none, and none can be made. -/
  | readOnly (hreadOnly : c.isReadOnly = true) (hcommitted : committed t c.storage = .ok none) :
    IsUnusable t c .readOnly
  /-- There are none, and there is no name for the file that undoes a change. -/
  | noJournal {place : Place} (hstorage : c.storage = .file place)
    (hcommitted : committed t c.storage = .ok none) (hjournal : hasJournalName place = false) :
    IsUnusable t c .unopened

/-- A connection is open and its tables are there, with no transaction under way. -/
structure HasTables (host : Host) (c : Connection) (t : Tables) : Prop where
  connection_eq : host.connection = some c
  transaction_eq : c.transaction = none
  committed_eq : committed host.tree c.storage = .ok (some t)

/-- What is in a storage cannot be read just if it is a file of something else. -/
theorem committed_eq_error {t : Tree Content} {storage : Storage}
    (h : committed t storage = .error fault) : fault = .notADatabase ∧
      ∃ place b bs, storage = .file place ∧ t.get? place = some (.file (.bytes (b :: bs))) := by
  cases storage with
  | memory tables => cases h
  | file place =>
    simp only [committed] at h
    -- A file that is not empty and holds no tables is no database.
    split at h
    · cases h
    · rename_i b bs hget
      cases h
      exact ⟨rfl, place, b, bs, rfl, hget⟩
    · cases h

/-- Tables that are put where there were none take no other tables away. -/
theorem store_of_none {host : Host} {c : Connection} {t : Tables}
    (hconnection : host.connection = some c) (hnone : committed host.tree c.storage = .ok none)
    (hroot : ∀ place, c.storage = .file place → place ≠ []) :
    ∃ host' c', store t host = .ok () host' ∧ HasTables host' c' t ∧
      host'.printed = host.printed ∧ KeepsTables host.tree host'.tree := by
  obtain ⟨storage, isReadOnly, transaction⟩ := c
  unfold store
  rw [bind_of_ok _ (connection_of_eq hconnection)]
  cases storage with
  | memory tables => exact ⟨_, _, rfl, ⟨rfl, rfl, rfl⟩, rfl, fun _ _ hget => hget⟩
  | file place =>
    have hself := host.tree.get?_put_self (hroot place rfl) (.file (.database t))
    refine ⟨_, _, rfl, ⟨rfl, rfl, ?_⟩, rfl, fun other tables hget => ?_⟩
    · simp only [committed, hself]
    · by_cases hplace : place = other
      · subst hplace
        simp only [committed, hget] at hnone
        -- The place held no tables, so none of another file's are lost.
        cases hnone
      · rwa [Tree.get?_put_of_ne _ hplace]

/-- Tables are there already, or empty ones are put where there are none, or it is found out why
there can be none. -/
theorem ends_makeTables (hconnection : host.connection = some c)
    (htransaction : c.transaction = none) (hroot : ∀ place, c.storage = .file place → place ≠ []) :
    Ends makeTables host (fun _ host' => (∃ c t, HasTables host' c t) ∧
        host'.printed = host.printed ∧ KeepsTables host.tree host'.tree)
      fun e host' => host' = host ∧ ∃ fault, e = .database fault ∧
        IsUnusable host.tree c fault := by
  -- What is committed is read first, and a file that is no database is found out here.
  have hread : Ends (Act.ofExcept .database (committed host.tree c.storage)) host
      (fun found host' => host' = host ∧ committed host.tree c.storage = .ok found)
      fun e host' => host' = host ∧ ∃ fault, e = .database fault ∧
        IsUnusable host.tree c fault := by
    cases hcommitted : committed host.tree c.storage with
    | error fault =>
      obtain ⟨rfl, place, b, bs, hstorage, hget⟩ := committed_eq_error hcommitted
      exact ends_throw ⟨rfl, _, rfl, .notADatabase hstorage hget⟩
    | ok found => exact ends_pure ⟨rfl, rfl⟩
  unfold makeTables
  refine Ends.bind (ends_of_ok (connection_of_eq hconnection)
    (P := fun c' host' => c' = c ∧ host' = host) ⟨rfl, rfl⟩) ?_
  rintro c host ⟨rfl, rfl⟩
  refine ends_bind_get (hread.bind ?_)
  rintro found host ⟨rfl, hcommitted⟩
  cases found with
  | some tables =>
    -- Where there are tables, not even a storage that is only read stops anything.
    exact ends_pure ⟨⟨c, tables, hconnection, htransaction, hcommitted⟩, rfl, fun _ _ hget => hget⟩
  | none =>
    obtain ⟨host', c', hstore, htables, hprinted, hkept⟩ :=
      store_of_none (t := .empty) hconnection hcommitted hroot
    have hmade : Ends (store .empty) host (fun _ host' => (∃ c t, HasTables host' c t) ∧
          host'.printed = host.printed ∧ KeepsTables host.tree host'.tree)
        fun e host' => host' = host ∧ ∃ fault, e = .database fault ∧
          IsUnusable host.tree c fault :=
      ends_of_ok hstore ⟨⟨c', .empty, htables⟩, hprinted, hkept⟩
    simp only [Option.isNone_none, ↓reduceIte]
    split
    · rename_i hreadOnly
      exact ends_throw ⟨rfl, _, rfl, .readOnly hreadOnly hcommitted⟩
    · split
      · rename_i place hstorage
        split
        · rename_i hjournal
          exact ends_throw ⟨rfl, _, rfl, .noJournal hstorage hcommitted (by simpa using hjournal)⟩
        · exact hmade
      · exact hmade

/-! ## Connecting -/

/-- How opening a database ends. Whatever comes of it, nothing is shown, and unless it is opened
fresh no tables are lost. -/
inductive ConnectEnd (path : Path) (fresh : Bool) (host : Host) :
    EStateM.Result Error Host Unit → Prop
  /-- The database is open and has its tables. -/
  | connected {host' : Host} {c : Connection} {t : Tables} (htables : HasTables host' c t)
    (hprinted : host'.printed = host.printed)
    (hkept : fresh = false → KeepsTables host.tree host'.tree) :
    ConnectEnd path fresh host (.ok () host')
  /-- It is reported why the database cannot be opened, and no connection is made. -/
  | refused {host' : Host} {reason : String} (hready : host.Readied fresh host') :
    ConnectEnd path fresh host (.error (.failure (.store reason (some path.text))) host')
  /-- The database is open, but cannot be used, and this is not reported as a failure. -/
  | unusable {host' : Host} {c : Connection} {fault : DatabaseFault}
    (hready : host.Readied fresh { host' with connection := host.connection })
    (hconnection : host'.connection = some c) (hfault : IsUnusable host'.tree c fault) :
    ConnectEnd path fresh host (.error (.database fault) host')
  /-- No file can be taken away by a path with a NUL in it. -/
  | nul {host' : Host} (hready : host.Readied fresh host') (hfresh : fresh = true)
    (hnul : Act.hasNul path.text = true) : ConnectEnd path fresh host (.error .nul host')

theorem connect_ends (path : Path) (fresh : Bool) (host : Host) :
    ConnectEnd path fresh host (connect path fresh host) := by
  rw [← ends_result_iff (R := ConnectEnd path fresh host)]
  unfold connect
  -- A fault before the connection stands is refused, one after it escapes.
  refine Ends.bind (ends_opened.mono (fun _ _ h => h) ?_) ?_
  · rintro e host₁ ⟨hready, hunready⟩
    rcases hunready with ⟨reason, rfl⟩ | ⟨rfl, hfresh, hnul⟩
    · exact .refused hready
    · exact .nul hready hfresh hnul
  · rintro c host₁ ⟨hready, htransaction, hroot⟩
    refine ends_bind_modify ?_
    have hkept₁ : fresh = false → KeepsTables host.tree host₁.tree :=
      fun hfresh place tables hget => hready.file_kept hfresh place _ hget
    refine Ends.bind ((ends_makeTables rfl htransaction hroot).mono (fun _ _ h => h) ?_) ?_
    · rintro e _ ⟨rfl, fault, rfl, hfault⟩
      exact .unusable ⟨rfl, hready.printed_eq, hready.file_of, hready.file_kept⟩ rfl hfault
    · rintro _ host₃ ⟨⟨c', t, htables⟩, hprinted, hkept⟩
      -- The log may be written to the file of the database itself.
      have hlog : ∀ host₄, Act.log .debug channel ("Graph DB connected at " ++ path.text) host₃ =
          .ok () host₄ → HasTables host₄ c' t ∧ host₄.printed = host₃.printed ∧
            KeepsTables host₃.tree host₄.tree := by
        rintro _ ⟨⟩
        refine ⟨⟨htables.connection_eq, htables.transaction_eq, ?_⟩, rfl, ?_⟩
        · dsimp only
          split
          · exact committed_appendTo htables.committed_eq _ _
          · exact htables.committed_eq
        · dsimp only
          split
          · exact keepsTables_appendTo _ _ _
          · exact fun _ _ hget => hget
      obtain ⟨htables', hprinted', hkept'⟩ := hlog _ rfl
      exact ends_of_ok rfl (.connected htables' (hprinted'.trans (hprinted.trans hready.printed_eq))
        fun hfresh => ((hkept₁ hfresh).trans hkept).trans hkept')

/-- A file that is there, in a folder that is there, is opened and nothing is changed. -/
theorem opened_of_lookup {a : Address} {place folder : Place} {content : Content}
    (hnul : Act.hasNul path.text = false)
    (hfile : host.tree.lookup host.folder path.text = .ok (place, .file content))
    (hfolder : host.tree.lookup host.folder path.parent.text = .ok (folder, .folder))
    (haddress : Address.ofText path.text = .ok a)
    (hstorage : storageOf a host.tree host.folder = .ok (.file place)) :
    opened path false host = .ok { storage := .file place, isReadOnly := a.isReadOnly } host := by
  have hexists : Act.pathExists path.text host = .ok true host :=
    bind_of_ok _ (Act.probe_of_lookup hnul hfile)
  have hnul' : Act.hasNul path.parent.text = false :=
    eq_false_of_ne_true fun h => by
      rw [Path.hasNul_of_parent h] at hnul
      cases hnul
  -- The file is there and so is its folder, so nothing is made.
  have hready : tryCatch (makeRoom path false) (fun
      | .access fault text => Act.fail (.store (fault.text text) (some path.text))
      | e => throw e) host = .ok () host :=
    tryCatch_of_ok _ ((bind_of_ok _ hexists).trans (Act.makeFolders_of_lookup hnul' hfolder))
  -- A file that is there is not planted anew.
  have hplanted : Storage.plant host.tree (.file place) = host.tree := by
    rw [Storage.plant, Tree.get?_of_lookup hfile]
    rfl
  unfold opened
  refine (bind_of_ok _ hready).trans ?_
  rw [bind_get, haddress]
  dsimp only
  rw [hstorage]
  dsimp only
  rw [hplanted]
  rfl

/-- A file beside the root is where its database is stored. -/
theorem storageOf_of_isBesideRoot {path name : String} {t : Tree Content} {content : Content}
    (h : Tree.IsBesideRoot path name) (hsegments : segmentsOf path = ["", name])
    (hget : t.get? [name] = some (.file content)) (hfree : isBlocked t [] name = false)
    (hsize : pathSize [name] + journalSuffix.utf8ByteSize ≤ pathLimit)
    (hmemory : Address.isInMemory { path } = false) :
    storageOf { path } t [] = .ok (.file [name]) := by
  have hlimit : ¬pathLimit < pathSize [name] := by
    omega
  -- A single name below the root: one step, no link and nothing in the way.
  have hplace : placeOf? t [] path = some [name] := by
    have hstay := not_or.1 h.not_stay
    simp [placeOf?, follow, h.start_eq, hsegments, hstay, h.ne_up, hfree, hget, hlimit]
    omega
  unfold storageOf
  rw [hmemory, hplace]
  simp only [Bool.false_eq_true, ↓reduceIte, Address.modelFile?, Address.option?,
    List.find?_nil, Option.map_none, hget]
  rfl

/-- A file beside the root is opened and nothing is changed. -/
theorem opened_of_isBesideRoot {name : String} {content : Content} (hfolder : host.folder = [])
    (h : Tree.IsBesideRoot path.text name)
    (hparent : path.parent = ⟨.root, []⟩) (hnul : Act.hasNul path.text = false)
    (hsegments : segmentsOf path.text = ["", name])
    (hget : host.tree.get? [name] = some (.file content))
    (hfree : isBlocked host.tree [] name = false)
    (hsize : pathSize [name] + journalSuffix.utf8ByteSize ≤ pathLimit)
    (haddress : Address.ofText path.text = .ok { path := path.text })
    (hmemory : Address.isInMemory { path := path.text } = false) :
    opened path false host = .ok { storage := .file [name] } host := by
  have hroot : (Path.mk .root []).text = "/" := by
    decide
  have hfile : host.tree.lookup host.folder path.text = .ok ([name], .file content) := by
    rw [hfolder]
    exact h.lookup_file hget
  -- The folder the file stands in is the root.
  have habove : host.tree.lookup host.folder path.parent.text = .ok ([], .folder) := by
    rw [hfolder, hparent, hroot]
    exact Tree.lookup_root _
  have hstorage : storageOf { path := path.text } host.tree host.folder = .ok (.file [name]) := by
    rw [hfolder]
    exact storageOf_of_isBesideRoot h hsegments hget hfree hsize hmemory
  rw [opened_of_lookup hnul hfile habove haddress hstorage,
    Address.isReadOnly_of_path]

/-- The path `/d` leads to the file that stands there. -/
theorem opened_besideRoot {content : Content} (hfolder : host.folder = [])
    (hget : host.tree.get? ["d"] = some (.file content)) :
    opened (Path.ofText "/d") false host = .ok { storage := .file ["d"] } host := by
  have hpath : (Path.ofText "/d").text = "/d" ∧ (Path.ofText "/d").parent = ⟨.root, []⟩ := by
    decide
  -- The database is an entry of the root itself.
  have hbeside : Tree.IsBesideRoot (Path.ofText "/d").text "d" := by
    rw [hpath.1]
    constructor <;> decide
  have hshort : isLongName "d" = false := by
    decide
  have hfree : isBlocked host.tree [] "d" = false := by
    simp [isBlocked, host.tree.get?_nil, hshort]
  exact opened_of_isBesideRoot hfolder hbeside hpath.2 (by decide) (by decide) hget hfree
    (by decide) (hpath.1 ▸ rfl) (by decide)

/-- A host with a file that is no database. -/
def foreignHost : Host where
  tree := { entries := [(["d"], .file (.bytes [110]))] }
  folder := []
  environment := []
  replies := []
  stamp := ""

/-- A file that is no database is opened; the fault is that of the database, and the connection
stays. -/
theorem connect_foreign : foreignHost.connection = none ∧ ∃ host' c,
    connect (Path.ofText "/d") false foreignHost = .error (.database .notADatabase) host' ∧
      host'.connection = some c := by
  have hopened : opened (Path.ofText "/d") false foreignHost =
      .ok { storage := .file ["d"] } foreignHost := opened_besideRoot rfl rfl
  exact ⟨rfl, _, _, (bind_of_ok _ hopened).trans rfl, rfl⟩

end Store

end ImportAtlas
