import ImportAtlas.Proofs.Act
import ImportAtlas.Proofs.Tree.Canonical

/-!
# Questions to the host

What is known of a path once a question about it is answered. A question changes nothing.

## Key results

- `Act.gives_isFile`: a path that is said to lead to a file leads to one
- `Act.gives_canonical`, `Act.gives_resolve`: a canonical path is straight
- `Tree.IsBesideRoot.lookup_file`: where a path of one name leads
-/

namespace ImportAtlas

namespace Act

variable {host : Host}

/-- A pure result is given as it is. -/
theorem gives_ofExcept {ε α : Type} (wrap : ε → Error) (result : Except ε α) :
    EStateM.Gives (ofExcept wrap result) host fun a host' => result = .ok a ∧ host' = host := by
  cases result with
  | ok a => exact EStateM.gives_pure ⟨rfl, rfl⟩
  | error e => exact EStateM.gives_throw _

/-- A question about a path is answered by the tree, and only if the path can be one. -/
theorem gives_ask {α : Type} (path : String)
    (question : Tree Content → Place → String → Except AccessFault α) :
    EStateM.Gives (ask path question) host fun a host' =>
      hasNul path = false ∧ question host.tree host.folder path = .ok a ∧ host' = host := by
  unfold ask
  split
  · exact EStateM.gives_throw _
  · -- With no NUL in the path the answer is the tree's, and the host is only read.
    rename_i hnul
    refine EStateM.gives_get.bind fun found host' hsame => ?_
    obtain ⟨rfl, rfl⟩ := hsame
    refine (gives_ofExcept _ _).mono fun a host' h => ?_
    exact ⟨eq_false_of_ne_true hnul, h⟩

/-- What is there is found. -/
theorem probe_of_lookup {path : String} {place : Place} {entry : Entry Content}
    (hnul : hasNul path = false)
    (hlookup : host.tree.lookup host.folder path = .ok (place, entry)) :
    probe path host = .ok (some entry) host := by
  unfold probe
  rw [hnul, if_neg Bool.false_ne_true, EStateM.bind_get, hlookup]
  rfl

/-- What is missing is not. -/
theorem probe_of_missing {path : String}
    (hlookup : host.tree.lookup host.folder path = .error .missing) :
    probe path host = .ok none host := by
  unfold probe
  split
  · rfl
  · rw [EStateM.bind_get, hlookup]
    rfl

/-- What a path leads to can be asked, unless one of its names is too long. -/
theorem asks_probe (path : String) :
    EStateM.Asks (probe path) host
      (fun found => ∀ entry, found = some entry ↔
        hasNul path = false ∧ ∃ place, host.tree.lookup host.folder path = .ok (place, entry))
      fun e => e = .access .longName path ∧
        host.tree.lookup host.folder path = .error .longName := by
  unfold probe
  split
  · rename_i hnul
    exact EStateM.asks_pure fun entry => iff_of_false nofun fun h => by simp [hnul] at h
  · rename_i hnul
    refine EStateM.asks_bind_get ?_
    split
    · -- The three cases are what looking up can come to: an entry, a path that is too long, or
      -- nothing.
      rename_i place entry hlookup
      refine EStateM.asks_pure fun entry' => ?_
      simp [hnul, hlookup]
    · rename_i hlookup
      exact EStateM.asks_throw ⟨rfl, hlookup⟩
    · rename_i hlookup
      exact EStateM.asks_pure fun entry => iff_of_false nofun fun h => by simp [hlookup] at h

/-- What is found is there. -/
theorem gives_probe (path : String) :
    EStateM.Gives (probe path) host fun found host' => host' = host ∧ ∀ entry, found = some entry →
      hasNul path = false ∧ ∃ place, host.tree.lookup host.folder path = .ok (place, entry) :=
  (asks_probe path).gives.mono fun _ _ h => ⟨h.1, fun entry => (h.2 entry).1⟩

/-- Only a path that is too long keeps one from learning whether it is a folder's. -/
theorem asks_isFolder (path : String) :
    EStateM.Asks (isFolder path) host
      (fun b => b = true ↔
        hasNul path = false ∧ ∃ place, host.tree.lookup host.folder path = .ok (place, .folder))
      fun e => e = .access .longName path ∧
        host.tree.lookup host.folder path = .error .longName := by
  unfold isFolder
  refine (asks_probe path).bind fun found hfound => ?_
  rw [← hfound]
  -- An answer that is no folder counts as no.
  split
  · exact EStateM.asks_pure (by simp)
  · rename_i hfolder
    exact EStateM.asks_pure (iff_of_false nofun hfolder)

/-- The same of files. -/
theorem asks_isFile (path : String) :
    EStateM.Asks (isFile path) host (fun _ => True) fun e => e = .access .longName path ∧
      host.tree.lookup host.folder path = .error .longName := by
  unfold isFile
  refine (asks_probe path).bind fun found _ => ?_
  split <;> exact EStateM.asks_pure trivial

/-- Whether a path exists can be asked, unless one of its names is too long. -/
theorem asks_pathExists (path : String) :
    EStateM.Asks (pathExists path) host (fun b => b = true → hasNul path = false) fun e =>
      e = .access .longName path ∧ host.tree.lookup host.folder path = .error .longName := by
  unfold pathExists
  refine (asks_probe path).bind fun found hfound => EStateM.asks_pure fun hsome => ?_
  obtain ⟨entry, rfl⟩ := Option.isSome_iff_exists.1 hsome
  exact ((hfound entry).1 rfl).1

/-- A path that is said to lead to a folder leads to one. -/
theorem gives_isFolder (path : String) :
    EStateM.Gives (isFolder path) host fun b host' => host' = host ∧ (b = true →
      hasNul path = false ∧ ∃ place, host.tree.lookup host.folder path = .ok (place, .folder)) :=
  (asks_isFolder path).gives.mono fun _ _ h => ⟨h.1, h.2.1⟩

/-- A question about a folder fails for no other reason. -/
theorem fails_isFolder (path : String) :
    EStateM.Fails (isFolder path) host fun e host' => host' = host ∧ e = .access .longName path :=
  (asks_isFolder path).fails.mono fun _ _ h => ⟨h.1, h.2.1⟩

/-- A path that is said to lead to a file leads to one. -/
theorem gives_isFile (path : String) :
    EStateM.Gives (isFile path) host fun b host' => host' = host ∧
      (b = true → hasNul path = false ∧ host.tree.leadsToFile host.folder path = true) := by
  unfold isFile
  refine (gives_probe path).bind fun found host' hfound => ?_
  split
  · refine EStateM.gives_pure ⟨hfound.1, fun _ => ?_⟩
    -- What the probe has found is what the path leads to.
    obtain ⟨hnul, place, hlookup⟩ := hfound.2 _ rfl
    exact ⟨hnul, by rw [Tree.leadsToFile, hlookup]⟩
  · exact EStateM.gives_pure ⟨hfound.1, nofun⟩

/-- Seen from a place made of names, a canonical path is straight. -/
theorem gives_canonical (hfolder : host.folder.IsProper) (path : String) :
    EStateM.Gives (canonical path) host fun p host' => p.IsStraight ∧ host' = host := by
  unfold canonical
  refine EStateM.gives_get.bind fun found host' hsame => ?_
  obtain ⟨rfl, rfl⟩ := hsame
  split
  · rename_i p hp
    exact EStateM.gives_pure ⟨Tree.isStraight_of_canonical? hfolder hp, rfl⟩
  · exact EStateM.gives_throw _

/-- So is a resolved one. -/
theorem gives_resolve (hfolder : host.folder.IsProper) (path : Path) :
    EStateM.Gives (resolve path) host fun p host' => p.IsStraight ∧ host' = host := by
  unfold resolve
  refine (gives_canonical hfolder path.text).bind fun p host' hp => ?_
  refine EStateM.gives_get.bind fun found host'' hsame => ?_
  obtain ⟨rfl, rfl⟩ := hsame
  split
  · exact EStateM.gives_throw _
  · exact EStateM.gives_pure hp

/-- Whether something is a file is seen by the entry. -/
theorem isFile_of_lookup {path : String} {place : Place} {entry : Entry Content}
    (hnul : hasNul path = false)
    (hlookup : host.tree.lookup host.folder path = .ok (place, entry)) :
    isFile path host = .ok entry.isFile host := by
  unfold isFile
  rw [EStateM.bind_of_ok _ (probe_of_lookup hnul hlookup)]
  cases entry <;> rfl

/-- A folder that is there is found to be one. -/
theorem isFolder_of_lookup {path : String} {place : Place} (hnul : hasNul path = false)
    (hlookup : host.tree.lookup host.folder path = .ok (place, .folder)) :
    isFolder path host = .ok true host := by
  unfold isFolder
  rw [EStateM.bind_of_ok _ (probe_of_lookup hnul hlookup)]
  rfl

/-- No file has a path with a NUL. -/
theorem isFile_of_hasNul {path : String} (hnul : hasNul path = true) :
    isFile path host = .ok false host := by
  -- A path with a NUL is not even looked for.
  have hprobe : probe path host = .ok none host := by
    unfold probe
    rw [if_pos hnul]
    rfl
  unfold isFile
  rw [EStateM.bind_of_ok _ hprobe]
  rfl

/-- A path is said to lead to a file just if it leads to one. -/
theorem isFile_eq_ok_true_iff {path : String} :
    isFile path host = .ok true host ↔
      hasNul path = false ∧ host.tree.leadsToFile host.folder path = true := by
  refine ⟨fun h => (gives_isFile path _ _ h).2 rfl, ?_⟩
  rintro ⟨hnul, hleads⟩
  unfold Tree.leadsToFile at hleads
  split at hleads
  · rename_i hlookup
    exact isFile_of_lookup hnul hlookup
  · cases hleads

/-- A path has a canonical one, unless it holds a NUL or ends in a circle of links. -/
theorem asks_resolve (path : Path) :
    EStateM.Asks (resolve path) host
      (fun p => host.tree.canonical? host.folder path.text = some p)
      fun e => (e = .nul ∧ host.tree.canonical? host.folder path.text = none) ∨
        ∃ p, e = .linkLoop p.text ∧ host.tree.canonical? host.folder path.text = some p ∧
          host.tree.lookup host.folder p.text = .error .manyLinks := by
  have hcanonical : EStateM.Asks (canonical path.text) host
      (fun p => host.tree.canonical? host.folder path.text = some p)
      fun e => e = .nul ∧ host.tree.canonical? host.folder path.text = none := by
    unfold canonical
    refine EStateM.asks_bind_get ?_
    split
    · exact EStateM.asks_pure ‹_›
    · exact EStateM.asks_throw ⟨rfl, ‹_›⟩
  unfold resolve
  -- A circle of links is only noticed when the canonical path is looked up.
  refine (hcanonical.mono (fun _ => id) fun _ => .inl).bind fun p hp => ?_
  refine EStateM.asks_bind_get ?_
  split
  · exact EStateM.asks_throw (.inr ⟨p, rfl, hp, ‹_›⟩)
  · exact EStateM.asks_pure hp

/-- A path becomes the canonical one, as the tree has it. -/
theorem gives_resolve_canonical? {path : Path} : EStateM.Gives (resolve path) host fun p s =>
    s = host ∧ host.tree.canonical? host.folder path.text = some p :=
  (asks_resolve path).gives

/-- A canonical path that leads somewhere does not end in a circle. -/
theorem resolve_of_lookup {path p : Path} {place : Place} {entry : Entry Content}
    (hcanonical : host.tree.canonical? host.folder path.text = some p)
    (hlookup : host.tree.lookup host.folder p.text = .ok (place, entry)) :
    resolve path host = .ok p host := by
  have hpath : canonical path.text host = .ok p host := by
    unfold canonical
    rw [EStateM.bind_get, hcanonical]
    rfl
  unfold resolve
  rw [EStateM.bind_of_ok _ hpath, EStateM.bind_get, hlookup]
  rfl

end Act

/-! ## Files beside the root -/

namespace Tree

variable {α : Type} {t : Tree α} {path name : String} {content : α}

/-- A path with nothing but one name behind the root. It is not too long. -/
structure IsBesideRoot (path name : String) : Prop where
  steps_eq : stepsOf path = [name]
  start_eq : startOf [] path = []
  isLongPath_eq : isLongPath path = false
  isLongName_eq : isLongName name = false
  not_stay : ¬(name = "" ∨ name = ".")
  ne_up : name ≠ ".."

namespace IsBesideRoot

/-- To locate a path beside the root is to walk its one name. -/
theorem locate_eq (h : IsBesideRoot path name) :
    t.locate [] .followed path = t.walk .followed linkBudget [] [name] := by
  have hempty : path ≠ "" := by
    rintro rfl
    have hsteps : stepsOf "" = [] := by
      decide
    have := h.steps_eq
    rw [hsteps] at this
    cases this
  -- The path starts at the root and has one step.
  rw [locate, if_neg hempty, h.isLongPath_eq, if_neg Bool.false_ne_true, h.start_eq, h.steps_eq]

/-- A file beside the root is found. -/
theorem lookup_file (h : IsBesideRoot path name) (hget : t.get? [name] = some (.file content)) :
    t.lookup [] path = .ok ([name], .file content) := by
  have hroot : t.isFolder [] = true := rfl
  rw [lookup, h.locate_eq, walk]
  simp [hroot, h.not_stay, h.ne_up, h.isLongName_eq, hget, walk]

/-- What is not beside the root is missing. -/
theorem lookup_missing (h : IsBesideRoot path name) (hget : t.get? [name] = none) :
    t.lookup [] path = .error .missing := by
  have hroot : t.isFolder [] = true := rfl
  rw [lookup, h.locate_eq, walk]
  simp [hroot, h.not_stay, h.ne_up, h.isLongName_eq, hget]

end IsBesideRoot

/-- The root is found by its slash. -/
theorem lookup_root (t : Tree α) : t.lookup [] "/" = .ok ([], .folder) := by
  have hsteps : stepsOf "/" = [] ∧ startOf [] "/" = [] ∧ isLongPath "/" = false := by
    decide
  have hroot : t.get? [] = some .folder := rfl
  simp [lookup, locate, walk, hsteps, hroot]

end Tree

end ImportAtlas
