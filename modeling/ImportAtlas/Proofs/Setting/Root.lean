import ImportAtlas.Proofs.Host
import ImportAtlas.Proofs.Import.Candidate
import ImportAtlas.Setting.Basic

/-!
# Settings that are accepted

Values are read without a change to the host, so the project root and the directories are made
canonical as seen from the working directory that was there at first, and the dots in front of
extensions are taken away. Output files of such settings have paths from the root.

## Key results

- `Settings.gives_directoryOf`: a directory is spelled as a straight path
- `Settings.IsAccepted`: what is known of settings that are accepted
-/

namespace ImportAtlas

namespace Settings

variable {host : Host}

/-! ## Reading values changes nothing -/

/-- To read a text changes nothing. -/
theorem gives_textOf (v : Value) : EStateM.Gives (textOf v) host fun _ host' => host' = host := by
  unfold textOf
  split
  · exact EStateM.gives_pure rfl
  · exact EStateM.gives_throw _

/-- What is refused gives nothing. -/
theorem gives_refuse {α : Type} (key : String) (value : Value) (reason : String)
    (P : α → Host → Prop) : EStateM.Gives (refuse key value reason : Act α) host P := by
  unfold refuse
  exact EStateM.gives_bind fun _ _ => EStateM.gives_throw _

theorem gives_homeDirectory : EStateM.Gives homeDirectory host fun _ host' => host' = host := by
  unfold homeDirectory
  refine EStateM.gives_get.bind fun found host' hsame => ?_
  exact EStateM.gives_pure hsame.2

/-- To put a home directory in changes nothing. -/
theorem gives_expandHome (path : String) :
    EStateM.Gives (expandHome path) host fun _ host' => host' = host := by
  unfold expandHome
  split
  · rename_i rest _
    refine EStateM.gives_get.bind fun found host' hsame => ?_
    obtain ⟨-, rfl⟩ := hsame
    extract_lets finish
    have hfinish (home : Option String) :
        EStateM.Gives (finish home) host' fun _ host'' => host'' = host' := by
      cases home <;> exact EStateM.gives_pure rfl
    -- The home directory is that of a user, or one's own.
    split
    · refine EStateM.Gives.bind (P := fun _ host'' => host'' = host') gives_homeDirectory
        fun home host'' hsame => ?_
      exact hsame ▸ hfinish home
    · refine EStateM.Gives.bind (P := fun _ host'' => host'' = host') (EStateM.gives_pure rfl)
        fun home host'' hsame => ?_
      exact hsame ▸ hfinish home
  · exact EStateM.gives_pure rfl

/-- A directory is spelled as a straight path. -/
theorem gives_directoryOf (hfolder : host.folder.IsProper) (base : Option String) (path : String) :
    EStateM.Gives (directoryOf base path) host fun text host' =>
      host' = host ∧ ∃ p : Path, p.IsStraight ∧ text = p.text := by
  unfold directoryOf
  refine (gives_expandHome path).bind fun expanded host' hsame => ?_
  subst hsame
  refine (Act.gives_canonical hfolder _).bind fun p host'' hp => ?_
  exact EStateM.gives_pure ⟨hp.2, p, hp.1, rfl⟩

/-- An extension is read without the dots in front of it. -/
theorem gives_extensionOf (v : Value) : EStateM.Gives (extensionOf v) host fun e host' =>
    host' = host ∧ e.toList.head? ≠ some '.' := by
  unfold extensionOf
  split
  · rename_i text
    refine EStateM.gives_pure ⟨rfl, fun hhead => ?_⟩
    rw [String.toList_ofList] at hhead
    -- All leading dots have been dropped.
    have hdot := List.head?_dropWhile_not (· == '.') text.toList
    rw [hhead] at hdot
    simp at hdot
  · exact EStateM.gives_throw _

/-- The project root of settings is spelled as a straight path. -/
def IsRooted (s : Settings) : Prop :=
  ∃ p : Path, p.IsStraight ∧ s.projectRoot = p.text

/-- What is known of settings that are accepted: the project root and the directories are spelled as
straight paths, and the extensions are bare. -/
structure IsAccepted (s : Settings) : Prop where
  isRooted : s.IsRooted
  isStraight_of_mem : ∀ d ∈ s.scanDirectories, ∃ p : Path, p.IsStraight ∧ d = p.text
  isBare_of_mem : ∀ e ∈ s.extensions, IsBare e

/-- The base directory of accepted settings is absolute. -/
theorem IsAccepted.isAbsolute_baseDirectory {s : Settings} (h : s.IsAccepted) :
    (Path.ofText s.baseDirectory).isAbsolute = true := by
  obtain ⟨p, hp, htext⟩ : ∃ p : Path, p.IsStraight ∧ s.baseDirectory = p.text := by
    unfold baseDirectory
    -- The first directory is the base, and with none the root is.
    cases hdirectories : s.scanDirectories with
    | nil => exact h.isRooted
    | cons d directories =>
      apply h.isStraight_of_mem d
      rw [hdirectories]
      exact List.mem_cons_self
  rw [htext, hp.ofText_text]
  exact hp.isAbsolute

/-- Output files have paths from the root. -/
theorem IsAccepted.isGrounded_outputPath {s : Settings} (h : s.IsAccepted)
    (file : String) : (s.outputPath file).IsGrounded where
  isAbsolute := by
    obtain ⟨p, hp, htext⟩ := h.isRooted
    apply Path.isAbsolute_append
    rw [htext, hp.ofText_text]
    exact hp.isAbsolute
  wellFormed := Path.wellFormed_append (Path.wellFormed_ofText _) (Path.wellFormed_ofText _)

end Settings

end ImportAtlas
