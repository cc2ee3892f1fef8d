import ImportAtlas.Proofs.Inventory
import ImportAtlas.Proofs.Tree.Walk
import ImportAtlas.Tree.Update

/-!
# Trees that grow

What a run writes are folders at places that were free and files at a few places. All else stays,
so a path that led to an entry still leads to one at the same place, and every folder is still one.

## Key results

- `Tree.Grown.trans`: growing may go on
- `Tree.grown_put_folder`, `Tree.grown_put_file`: a tree grows by what is put into it
- `Tree.Grown.lookup_of_ok`: paths lead where they led before
-/

namespace ImportAtlas

namespace Tree

variable {α : Type} {written : Place → Prop} {t t' t'' : Tree α} {here place : Place}
  {entry : Entry α} {content : α}

/-- The tree has grown: folders were made at free places that paths can name, and files were put at
places of `written` where no folder was. Nothing else has changed. -/
structure Grown (written : Place → Prop) (t t' : Tree α) : Prop where
  isPlain : t'.IsPlain
  isClosed : t'.IsClosed
  get?_cases : ∀ place, t'.get? place = t.get? place ∨
    (t.get? place = none ∧ t'.get? place = some .folder ∧ place.IsProper ∧ place.IsShort) ∨
    (written place ∧ t.get? place ≠ some .folder ∧ place.IsProper ∧
      ∃ content, t'.get? place = some (.file content))

namespace Grown

/-- A tree may not have grown at all. -/
theorem refl (hplain : t.IsPlain) (hclosed : t.IsClosed) : Grown written t t :=
  ⟨hplain, hclosed, fun _ => .inl rfl⟩

/-- A place where a file was put is no folder later, and a new folder is no free place. -/
theorem trans (h : Grown written t t') (h' : Grown written t' t'') : Grown written t t'' := by
  refine ⟨h'.isPlain, h'.isClosed, fun place => ?_⟩
  rcases h'.get?_cases place with hsame | ⟨hfree, hfolder, hfit⟩ | ⟨hput, hno, hproper, hfile⟩
  · rw [hsame]
    exact h.get?_cases place
  · -- A place that is free in the middle was free before, as nothing is ever taken away.
    rcases h.get?_cases place with hsame | ⟨-, hfolder', -⟩ | ⟨-, -, -, content, hfile'⟩
    · exact .inr (.inl ⟨hsame ▸ hfree, hfolder, hfit⟩)
    · rw [hfree] at hfolder'
      cases hfolder'
    · rw [hfree] at hfile'
      cases hfile'
  · refine .inr (.inr ⟨hput, ?_, hproper, hfile⟩)
    rcases h.get?_cases place with hsame | ⟨-, hfolder', -⟩ | ⟨-, hno', -⟩
    · exact hsame ▸ hno
    · exact absurd hfolder' hno
    · exact hno'

/-- More places may be written. -/
theorem mono {written' : Place → Prop} (h : Grown written t t')
    (hmore : ∀ place, written place → written' place) : Grown written' t t' where
  isPlain := h.isPlain
  isClosed := h.isClosed
  get?_cases place := (h.get?_cases place).imp_right fun hnew =>
    hnew.imp_right fun ⟨hput, hrest⟩ => ⟨hmore place hput, hrest⟩

/-- A tree grows by proper names only. -/
theorem isProper (h : Grown written t t') (hproper : t.IsProper) : t'.IsProper := by
  intro place entry hget
  rcases h.get?_cases place with hsame | ⟨-, -, hfit, -⟩ | ⟨-, -, hfit, -⟩
  · exact hproper place entry (hsame ▸ hget)
  · exact hfit
  · exact hfit

/-- A folder is still one. -/
theorem get?_folder (h : Grown written t t') (hget : t.get? place = some .folder) :
    t'.get? place = some .folder := by
  rcases h.get?_cases place with hsame | ⟨hfree, -⟩ | ⟨-, hno, -⟩
  · rw [hsame, hget]
  · rw [hget] at hfree
    cases hfree
  · exact absurd hget hno

/-- So all folders are still there. -/
theorem isFolder (h : Grown written t t') (hfolder : t.isFolder place = true) :
    t'.isFolder place = true :=
  isFolder_iff.2 (h.get?_folder (isFolder_iff.1 hfolder))

/-- A file is still one, and what is none becomes none, but for links. -/
theorem isFile_eq (h : Grown written t t') (hplain : t.IsPlain) (hget : t.get? place = some entry) :
    ∃ entry', t'.get? place = some entry' ∧ entry'.isFile = entry.isFile := by
  rcases h.get?_cases place with hsame | ⟨hfree, -⟩ | ⟨-, hno, -, content, hfile⟩
  · exact ⟨entry, hsame.trans hget, rfl⟩
  · rw [hget] at hfree
    cases hfree
  · refine ⟨_, hfile, ?_⟩
    cases entry with
    | file content => rfl
    | folder => exact absurd hget hno
    | link target => exact absurd hget (hplain.ne_link _ _)

/-- A file is still one, with other content perhaps. -/
theorem get?_file (h : Grown written t t') (hget : t.get? place = some (.file content)) :
    ∃ content', t'.get? place = some (.file content') := by
  rcases h.get?_cases place with hsame | ⟨hfree, -⟩ | ⟨-, -, -, hfile⟩
  · exact ⟨content, hsame.trans hget⟩
  · rw [hget] at hfree
    cases hfree
  · exact hfile

/-- Away from the places that are written to, an entry is as it was. -/
theorem get?_of_not_written (h : Grown written t t') (hplace : ¬ written place)
    (hget : t.get? place ≠ none) : t'.get? place = t.get? place := by
  rcases h.get?_cases place with hsame | ⟨hfree, -⟩ | ⟨hput, -⟩
  · exact hsame
  · exact absurd hfree hget
  · exact absurd hput hplace

/-- A path to a folder still leads to it. -/
theorem lookup_folder (h : Grown written t t') (hplain : t.IsPlain) (hclosed : t.IsClosed)
    {p : Path} (hp : p.IsGrounded) (hlookup : t.lookup here p.text = .ok (place, .folder)) :
    t'.lookup here p.text = .ok (place, .folder) := by
  obtain ⟨hlong, hpasses, hplace, hget⟩ := (hplain.lookup_eq_ok_iff hclosed hp).1 hlookup
  exact (h.isPlain.lookup_eq_ok_iff h.isClosed hp).2
    ⟨hlong, hpasses.mono fun _ => h.isFolder, hplace, h.get?_folder hget⟩

end Grown

/-! ## Putting entries -/

/-- A plain tree stays plain unless a link is put into it. -/
theorem isPlain_put (hplain : t.IsPlain) (hlink : ∀ target, entry ≠ .link target) (place : Place) :
    (t.put place entry).IsPlain := by
  intro e he
  rcases Dictionary.mem_put he with he | hvalue
  · exact hplain e he
  · rwa [hvalue]

/-- A closed tree stays closed if the folder above is there, and no folder is written over. -/
theorem isClosed_put (hclosed : t.IsClosed) (hno : t.get? place ≠ some .folder)
    (habove : t.isFolder place.dropLast = true) (entry : Entry α) :
    (t.put place entry).IsClosed := by
  -- What is put is put over no folder, so all folders are still there.
  have hfolder : ∀ other, t.isFolder other = true → (t.put place entry).isFolder other = true := by
    intro other hother
    have hne : place ≠ other := by
      rintro rfl
      exact hno (isFolder_iff.1 hother)
    rw [isFolder_iff, get?_put_of_ne _ hne]
    exact isFolder_iff.1 hother
  intro other hget
  by_cases hsame : place = other
  · exact hsame ▸ hfolder _ habove
  · rw [get?_put_of_ne _ hsame] at hget
    exact hfolder _ (hclosed other hget)

/-- Only a folder stands at the root. -/
theorem ne_nil_of_get?_ne_folder (hno : t.get? place ≠ some .folder) : place ≠ [] := by
  rintro rfl
  exact hno t.get?_nil

/-- A folder is made at a free place. -/
theorem grown_put_folder (hplain : t.IsPlain) (hclosed : t.IsClosed) (hfree : t.get? place = none)
    (habove : t.isFolder place.dropLast = true) (hproper : place.IsProper)
    (hshort : place.IsShort) : Grown written t (t.put place .folder) := by
  have hno : t.get? place ≠ some .folder := by
    rw [hfree]
    exact nofun
  have hlink : ∀ target, Entry.folder ≠ (.link target : Entry α) := nofun
  refine ⟨isPlain_put hplain hlink _, isClosed_put hclosed hno habove _, fun other => ?_⟩
  -- Only the free place gets an entry, and that is a folder.
  by_cases hsame : place = other
  · subst hsame
    exact .inr (.inl ⟨hfree, t.get?_put_self (ne_nil_of_get?_ne_folder hno) _, hproper, hshort⟩)
  · exact .inl (get?_put_of_ne _ hsame _)

/-- A file is put where no folder is. -/
theorem grown_put_file (hplain : t.IsPlain) (hclosed : t.IsClosed) (hput : written place)
    (hno : t.get? place ≠ some .folder) (habove : t.isFolder place.dropLast = true)
    (hproper : place.IsProper) (content : α) : Grown written t (t.put place (.file content)) := by
  have hlink : ∀ target, Entry.file content ≠ .link target := nofun
  refine ⟨isPlain_put hplain hlink _, isClosed_put hclosed hno habove _, fun other => ?_⟩
  by_cases hsame : place = other
  · subst hsame
    exact .inr (.inr ⟨hput, hno, hproper, content,
      t.get?_put_self (ne_nil_of_get?_ne_folder hno) _⟩)
  · exact .inl (get?_put_of_ne _ hsame _)

/-- A file is put over another one. -/
theorem grown_put_over (hplain : t.IsPlain) (hclosed : t.IsClosed) (hproper : place.IsProper)
    (hget : t.get? place = some (.file content)) (content' : α) :
    Grown (Eq place) t (t.put place (.file content')) := by
  have hno : t.get? place ≠ some .folder := by
    rw [hget]
    exact nofun
  have habove : t.isFolder place.dropLast = true := by
    apply hclosed
    rw [hget]
    exact nofun
  exact grown_put_file hplain hclosed rfl hno habove hproper _

/-- A tree has grown if a file stands at one place, and everything else is as it was or is a new
folder. -/
theorem grown_of_get?_cases (hplain : t'.IsPlain) (hclosed : t'.IsClosed) (hput : written place)
    (hno : t.get? place ≠ some .folder) (hproper : place.IsProper)
    (hfile : ∃ content, t'.get? place = some (.file content))
    (hothers : ∀ other, other ≠ place → t'.get? other = t.get? other ∨
      t.get? other = none ∧ t'.get? other = some .folder ∧ other.IsProper ∧ other.IsShort) :
    Grown written t t' := by
  refine ⟨hplain, hclosed, fun other => ?_⟩
  by_cases hsame : other = place
  · subst hsame
    exact .inr (.inr ⟨hput, hno, hproper, hfile⟩)
  · exact (hothers other hsame).imp_right .inl

/-! ## Taking files away -/

/-- What is taken away is gone. -/
theorem get?_erase_self (t : Tree α) (h : place ≠ []) : (t.erase place).get? place = none := by
  rw [get?, if_neg h, erase, Dictionary.get?_filter _ (· != place)]
  simp

/-- Nothing else is. -/
theorem get?_erase_of_ne (t : Tree α) {other : Place} (h : place ≠ other) :
    (t.erase place).get? other = t.get? other := by
  unfold get?
  split
  · rfl
  · rw [erase, Dictionary.get?_filter _ (· != place)]
    simp [Ne.symm h]

/-- Folders are still there when something else has been taken away. -/
theorem isFolder_erase (hno : t.get? place ≠ some .folder) {other : Place}
    (hfolder : t.isFolder other = true) : (t.erase place).isFolder other = true := by
  have hne : place ≠ other := by
    rintro rfl
    exact hno (isFolder_iff.1 hfolder)
  rwa [isFolder, t.get?_erase_of_ne hne]

/-- Nothing stands in what is no folder, so a tree without it is closed. -/
theorem isClosed_erase (hclosed : t.IsClosed) (hno : t.get? place ≠ some .folder) :
    (t.erase place).IsClosed := by
  have hroot := ne_nil_of_get?_ne_folder hno
  intro other hother
  have hne : place ≠ other := by
    rintro rfl
    exact hother (t.get?_erase_self hroot)
  rw [t.get?_erase_of_ne hne] at hother
  exact isFolder_erase hno (hclosed other hother)

end Tree

end ImportAtlas
