import ImportAtlas.Proofs.Founding
import ImportAtlas.Proofs.Store.Connect
import ImportAtlas.Proofs.Store.Follow

/-!
# A database made anew

Before a database is made anew, what stands at its path is taken away and the folder above is made.
In whatever tree, a new file is then all that is put there. No file that another path resolves to is
changed, neither by this nor by where it stops; and when the file has been made, the path of the
database leads to it.

This does not hold of every path. One that goes up from a missing folder leads nowhere at first, so
nothing is taken away, but once the folder has been made it may lead to a file. And a path that
names a link may have come by that very link.

## Key results

- `Tree.IsReplaceable`: what stands at a path can be taken away and be made anew
- `Store.Renewed`, `Store.Ready`: what is there when a new file is all that is missing
- `Store.ends_opened_renewed`: how opening a database anew ends
-/

namespace ImportAtlas

open EStateM

/-- What stands at a path can be replaced by a file: if it is a link, the folder above is found
without it, and if it is missing, the path does not go up from a missing folder. -/
def Tree.IsReplaceable (t : Tree Content) (here : Place) (p : Path) : Prop :=
  match t.locate here .kept p.text with
  | .ok (.present place (.link _)) =>
    (t.erase place).lookup here p.parent.text = t.lookup here p.parent.text
  | .error .missing => t.IsClimbable here p
  | _ => True

/-- A link to anything but a folder can be replaced. -/
theorem Tree.isReplaceable_of_link {t : Tree Content} {here place spot : Place} {p : Path}
    {target : String} (hclosed : t.IsClosed) (hp : p.IsGrounded)
    (hplace : t.Resolves here p.text place) (hno : t.isFolder place = false)
    (hlocate : t.locate here .kept p.text = .ok (.present spot (.link target))) :
    t.IsReplaceable here p := by
  have hlink := Tree.get?_of_walk (Tree.walk_of_locate hlocate)
  have hfolder : t.get? spot ≠ some .folder := by
    rw [hlink]
    exact nofun
  obtain ⟨-, folder, -, -, -, hparent, -⟩ :=
    Tree.exists_front_of_locate hclosed hp hlocate hfolder
  rw [Tree.IsReplaceable, hlocate]
  refine Eq.trans ((Tree.lookup_erase hfolder hparent).resolve_right ?_) hparent.symm
  -- If the folder above were found through the link, the link would lead to a folder.
  rintro ⟨target', mid, hlink', hleads, hmid⟩
  obtain rfl : target = target' := by
    rw [hlink] at hlink'
    cases hlink'
    rfl
  have hsettles := (Tree.GoesWith.refl t).settles_of_locate hclosed hp hlocate hplace
  obtain rfl := ((Tree.settles_of_link hlink).1 hsettles).unique hleads
  exact Bool.false_ne_true (hno.symm.trans hmid)

/-- A path that never goes up can be replaced if it does not lead to a folder. -/
theorem Tree.isReplaceable_of_not_mem {t : Tree Content} {here place : Place} {p : Path}
    (hclosed : t.IsClosed) (hp : p.IsGrounded) (hup : ".." ∉ p.names)
    (hplace : t.Resolves here p.text place) (hno : t.isFolder place = false) :
    t.IsReplaceable here p := by
  -- A link is replaced itself; anything else is reached by names that lead down.
  by_cases hlink : ∃ spot target, t.locate here .kept p.text = .ok (.present spot (.link target))
  · obtain ⟨spot, target, hlocate⟩ := hlink
    exact Tree.isReplaceable_of_link hclosed hp hplace hno hlocate
  · unfold IsReplaceable
    split
    · rename_i spot target hlocate
      exact absurd ⟨spot, target, hlocate⟩ hlink
    · exact Tree.isClimbable_of_not_mem hup
    · trivial

/-- If a file stands at a place, it stands there before and after, and is the same. -/
def Tree.SameFile (t t' : Tree Content) (place : Place) : Prop :=
  ∀ content, t'.get? place = some (.file content) ↔ t.get? place = some (.file content)

/-- Every file that a path resolves to is the same before and after, except at one place. -/
def Tree.Spares (t t' : Tree Content) (place : Place) : Prop :=
  ∀ (here other : Place) (q : Path), q.IsGrounded → t.Resolves here q.text other → other ≠ place →
    t.SameFile t' other

section Spares

variable {t t' : Tree Content} {place : Place}

/-- To found folders keeps all files. -/
theorem Tree.Founded.sameFile (h : t.Founded t') (place : Place) : t.SameFile t' place :=
  h.get?_file_iff place

/-- So it spares what stands at any place. -/
theorem Tree.Founded.spares (h : t.Founded t') (place : Place) : t.Spares t' place :=
  fun _ other _ _ _ _ => h.sameFile other

/-- What is not touched is spared. -/
theorem Tree.spares_refl (t : Tree Content) (place : Place) : t.Spares t place :=
  fun _ _ _ _ _ _ _ => Iff.rfl

end Spares

namespace Store

variable {t t₀ t' : Tree Content} {here place folder : Place} {p q : Path} {content : Content}
  {n : String} {host host' : Host}

/-- A new file named `n` in `folder` is all that is missing at the path of a database: no other
entry than the old one has been taken away, and only folders have been put into the tree. -/
structure Renewed (t₀ t : Tree Content) (here : Place) (p : Path) (folder : Place) (n : String) :
    Prop where
  names_eq : p.names = p.parent.names ++ [n]
  ne_up : n ≠ ".."
  isLongPath_eq : isLongPath p.text = false
  lookup_parent : t.lookup here p.parent.text = .ok (folder, .folder)
  isClosed : t.IsClosed
  /-- The old file is gone. -/
  get?_eq_none : t.get? (folder ++ [n]) = none
  /-- Elsewhere nothing changes but for the folders that are made. -/
  get?_cases : ∀ other, other ≠ folder ++ [n] → t.get? other = t₀.get? other ∨
    t₀.get? other = none ∧ t.get? other = some .folder
  /-- What was there was found under the same path. -/
  locate_of_some : ∀ entry, t₀.get? (folder ++ [n]) = some entry →
    t₀.locate here .kept p.text = .ok (.present (folder ++ [n]) entry)

/-- A file or link has been taken away from a folder that is still there. -/
theorem renewed_of_removeFile (hclosed : t.IsClosed) (hp : p.IsGrounded)
    (hreplace : t.IsReplaceable here p)
    (hremove : t.removeFile here p.text = .ok t') :
    ∃ folder n, Renewed t t' here p folder n := by
  unfold Tree.removeFile at hremove
  split at hremove
  · cases hremove
  · rename_i spot entry hno hlocate
    cases hremove
    have hget := Tree.get?_of_walk (Tree.walk_of_locate hlocate)
    have hfolder : t.get? spot ≠ some .folder := by
      rw [hget]
      exact fun h => hno (Option.some_inj.1 h)
    obtain ⟨n, folder, hnames, hup, hshort, hparent, hspot⟩ :=
      Tree.exists_front_of_locate hclosed hp hlocate hfolder
    obtain ⟨rfl, -⟩ := Tree.present_eq_spotAt_iff.1 hspot
    have hroot : folder ++ [n] ≠ [] := by simp
    refine ⟨folder, n, hnames, hup, (Tree.locate_eq_ok_iff.1 hlocate).2.1, ?_,
      Tree.isClosed_erase hclosed hfolder, t.get?_erase_self hroot,
      fun other hne => .inl (t.get?_erase_of_ne (Ne.symm hne)), fun entry' hget' => ?_⟩
    · -- A link at the place is harmless by assumption, and a file is no part of the way to its
      -- folder.
      cases entry with
      | link target =>
        rw [Tree.IsReplaceable, hlocate] at hreplace
        exact hreplace.trans hparent
      | file content =>
        refine (Tree.lookup_erase hfolder hparent).resolve_right ?_
        rintro ⟨target, -, hlink, -⟩
        cases hget.symm.trans hlink
      | folder => exact absurd hget hfolder
    · rw [hget] at hget'
      cases hget'
      exact hlocate
  · cases hremove
  · cases hremove

/-- A free name in a folder that was there or has been made. -/
theorem renewed_of_founded (hfounded : t.Founded t')
    (hparent : t'.lookup here p.parent.text = .ok (folder, .folder))
    (hlong : isLongPath p.text = false) (hnames : p.names = p.parent.names ++ [n]) (hup : n ≠ "..")
    (hfree : t'.get? (folder ++ [n]) = none) : Renewed t t' here p folder n := by
  refine ⟨hnames, hup, hlong, hparent, hfounded.isClosed, hfree, fun other _ => ?_,
    fun entry hget => ?_⟩
  · exact hfounded.get?_cases other
  · -- Founding takes no entry away, so nothing was there before either.
    rw [hfounded.get?_of_some hget] at hfree
    cases hfree

/-- A path that is not found has a last name, for the root is always there. -/
theorem exists_names_of_missing (hp : p.IsGrounded)
    (hmissing : t.removeFile here p.text = .error .missing)
    (hlocate : t.locate here .kept p.text = .error .missing) :
    ∃ n, p.names = p.parent.names ++ [n] := by
  obtain hnil | ⟨front, n, hnames⟩ := List.eq_nil_or_concat p.names
  · -- The root is always found, so the path has a name.
    have hroot : t.locate here .kept p.text = .ok (.present [] .folder) := by
      rw [hp.locate_eq, isLongPath_of_missing hmissing, if_neg Bool.false_ne_true, hnil]
      exact Tree.walk_nil t.get?_nil
    rw [hroot] at hlocate
    cases hlocate
  · rw [List.concat_eq_append] at hnames
    refine ⟨n, ?_⟩
    rw [Path.parent, hnames, List.dropLast_concat]

/-- Nothing was found, and the folder above has been made, unless it was there. -/
theorem renewed_of_missing (hclosed : t.IsClosed) (hp : p.IsGrounded)
    (hreplace : t.IsReplaceable here p)
    (hmissing : t.removeFile here p.text = .error .missing) (hfounded : t.Founded t')
    (hparent : t'.lookup here p.parent.text = .ok (folder, .folder))
    (hsame : ∀ folder, t.lookup here p.parent.text = .ok (folder, .folder) → t' = t)
    (hnew : t.IsClimbable here p.parent → t' = t ∨ ∀ n, t'.get? (folder ++ [n]) = none) :
    ∃ n, Renewed t t' here p folder n := by
  have hlong := isLongPath_of_missing hmissing
  have hnotFound := hmissing
  unfold Tree.removeFile at hmissing
  split at hmissing
  · cases hmissing
  · cases hmissing
  · -- The folder is there, but the name in it is free.
    rename_i spot hlocate
    have hfree := Tree.get?_of_walk_vacant (Tree.walk_of_locate hlocate)
    obtain ⟨n, folder', hnames, hup, -, hparent', hspot⟩ :=
      Tree.exists_front_of_locate hclosed hp hlocate (by
        rw [show t.get? (Spot.vacant spot : Spot Content).place = none from hfree]
        exact nofun)
    obtain ⟨rfl, -⟩ := Tree.vacant_eq_spotAt_iff.1 hspot
    obtain rfl := hsame folder' hparent'
    obtain rfl : folder' = folder := by
      rw [hparent] at hparent'
      cases hparent'
      rfl
    exact ⟨n, renewed_of_founded hfounded hparent hlong hnames hup hfree⟩
  · rename_i fault hlocate
    cases hmissing
    obtain ⟨n, hnames⟩ := exists_names_of_missing hp hnotFound hlocate
    rw [Tree.IsReplaceable, hlocate] at hreplace
    have hup : n ≠ ".." := hreplace.ne_up hnames hlocate
    rcases hnew hreplace.parent with rfl | hempty
    · -- In a folder that is there a last name is not said to be missing.
      rw [Tree.locate_of_lookup_parent hp hnames hup hparent hlong (.inl rfl)] at hlocate
      split at hlocate <;> cases hlocate
    · exact ⟨n, renewed_of_founded hfounded hparent hlong hnames hup (hempty n)⟩

/-- A path that resolves elsewhere does not resolve to a place from which one comes to `place`. -/
theorem ne_of_settles (h : t.Settles (folder ++ [n]) place) (hq : q.IsGrounded) {other : Place}
    (hother : t.Resolves here q.text other) (hne : other ≠ place) : other ≠ folder ++ [n] := by
  rintro rfl
  exact hne ((Tree.settles_of_ne_link (hother.ne_link hq)).1 h).symm

namespace Renewed

/-- What is there now was there before, or is a folder that stands where nothing was. -/
theorem get?_of_some (h : Renewed t₀ t here p folder n) {other : Place} {entry : Entry Content}
    (hget : t.get? other = some entry) :
    t₀.get? other = some entry ∨ t₀.get? other = none ∧ entry = .folder := by
  have hne : other ≠ folder ++ [n] := by
    rintro rfl
    rw [h.get?_eq_none] at hget
    cases hget
  -- It was there already, or it is one of the folders made for the path.
  rcases h.get?_cases other hne with hsame | ⟨hfree, hfolder⟩
  · exact .inl (hsame.symm.trans hget)
  · exact .inr ⟨hfree, Option.some_inj.1 (hget.symm.trans hfolder)⟩

/-- A renewed tree goes with the one before. -/
theorem goesWith (h : Renewed t₀ t here p folder n) : t₀.GoesWith t where
  get?_link other target hget := by
    -- No link is among what has been made.
    rcases h.get?_of_some hget with hlink | ⟨-, hfolder⟩
    · exact hlink
    · cases hfolder
  ne_link other hfolder target hlink := by
    rcases h.get?_of_some (Tree.isFolder_iff.1 hfolder) with hget | ⟨hfree, -⟩
    · cases hlink.symm.trans hget
    · cases hlink.symm.trans hfree

/-- All but the renewed place is spared. -/
theorem spares (h : Renewed t₀ t here p folder n) (hclosed : t₀.IsClosed) (hp : p.IsGrounded)
    (hplace : t₀.Resolves here p.text place) : t₀.Spares t place := by
  intro here' other q hq hother hne content
  by_cases hsame : other = folder ++ [n]
  · subst hsame
    cases hget : t₀.get? (folder ++ [n]) with
    | none => rw [h.get?_eq_none]
    | some entry =>
      have hsettles := (Tree.GoesWith.refl t₀).settles_of_locate hclosed hp
        (h.locate_of_some entry hget) hplace
      exact absurd rfl (ne_of_settles hsettles hq hother hne)
  · rcases h.get?_cases other hsame with hsame | ⟨hfree, hfolder⟩
    · rw [hsame]
    · rw [hfree, hfolder]
      constructor <;> exact nofun

/-- A file can be put where room has been made for it. -/
theorem isClosed_put (h : Renewed t₀ t here p folder n) (content : Content) :
    (t.put (folder ++ [n]) (.file content)).IsClosed := by
  refine Tree.isClosed_put h.isClosed ?_ ?_ _
  · rw [h.get?_eq_none]
    exact nofun
  · rw [List.dropLast_concat]
    exact Tree.isFolder_iff.2 (Tree.get?_of_lookup h.lookup_parent)

/-- That keeps everything else. -/
theorem keeps_put (h : Renewed t₀ t here p folder n) (content : Content) :
    t.Keeps (t.put (folder ++ [n]) (.file content)) := by
  refine Tree.keeps_put_file (fun entry hget => ?_) content
  rw [h.get?_eq_none] at hget
  cases hget

/-- With the new file the tree goes with the one before, and so does one with more folders. -/
theorem goesWith_founded (h : Renewed t₀ t here p folder n) {content : Content}
    (hfounded : (t.put (folder ++ [n]) (.file content)).Founded t') : t₀.GoesWith t' := by
  -- What is no file with this content is not at the new place, and was there before the put.
  have hput {other : Place} {found : Option (Entry Content)}
      (hget : (t.put (folder ++ [n]) (.file content)).get? other = found)
      (hno : found ≠ some (.file content)) : other ≠ folder ++ [n] ∧ t.get? other = found := by
    have hne : other ≠ folder ++ [n] := by
      rintro rfl
      exact hno (hget.symm.trans (Tree.get?_put_self _ (by simp) _))
    exact ⟨hne, (Tree.get?_put_of_ne _ (Ne.symm hne) _).symm.trans hget⟩
  have hgoes := h.goesWith
  refine hfounded.goesWith ⟨fun other target hlink => ?_, fun other hfolder => ?_⟩
    fun other hfree target hlink => ?_
  · exact hgoes.get?_link other target (hput hlink nofun).2
  · exact hgoes.ne_link other (Tree.isFolder_iff.2 (hput (Tree.isFolder_iff.1 hfolder) nofun).2)
  · obtain ⟨hne, hfree⟩ := hput hfree nofun
    -- What is free now was free before, or is so since the old file was taken away.
    rcases h.get?_cases other hne with hsame | ⟨hnone, -⟩
    · cases hlink.symm.trans (hsame.symm.trans hfree)
    · cases hlink.symm.trans hnone

end Renewed

/-- The new file can also be made, and be opened by its path. -/
structure Ready (t₀ t : Tree Content) (here : Place) (p : Path) (folder : Place) (n : String) :
    Prop extends Renewed t₀ t here p folder n where
  hasNul_eq : Act.hasNul p.text = false
  isLongName_eq : isLongName n = false
  placeOf?_eq : placeOf? t here p.text = some (folder ++ [n])

namespace Ready

/-- The new place is free, and where the path of the database leads. -/
theorem locate_eq (h : Ready t₀ t here p folder n) (hp : p.IsGrounded) (last : LastStep) :
    t.locate here last p.text = .ok (.vacant (folder ++ [n])) := by
  have hlink : ∀ target, t.get? (folder ++ [n]) ≠ some (.link target) := by
    rw [h.get?_eq_none]
    exact nofun
  rw [Tree.locate_of_lookup_parent hp h.names_eq h.ne_up h.lookup_parent h.isLongPath_eq
    (.inr hlink), h.isLongName_eq, if_neg Bool.false_ne_true,
    Tree.spotAt_of_get?_eq_none h.get?_eq_none]

/-- Before, one came from the new place to where the path resolved to. -/
theorem settles (h : Ready t₀ t here p folder n) (hp : p.IsGrounded)
    (hplace : t₀.Resolves here p.text place) : t₀.Settles (folder ++ [n]) place :=
  h.goesWith.settles_of_locate h.isClosed hp (h.locate_eq hp .kept) hplace

/-- The new file does not change what another path resolved to. -/
theorem spares_put (h : Ready t₀ t here p folder n) (hclosed : t₀.IsClosed) (hp : p.IsGrounded)
    (hplace : t₀.Resolves here p.text place) (content : Content) :
    t₀.Spares (t.put (folder ++ [n]) (.file content)) place := by
  intro here' other q hq hother hne
  have hother' := ne_of_settles (h.settles hp hplace) hq hother hne
  rw [Tree.SameFile, Tree.get?_put_of_ne _ (Ne.symm hother')]
  exact h.spares hclosed hp hplace here' other q hq hother hne

end Ready

/-! ## Opening -/

section Opening

variable (hclosed : host.tree.IsClosed) (hlog : host.logFile = none) (hp : p.IsGrounded)
  (hplace : host.tree.Resolves host.folder p.text place)
  (hreplace : host.tree.IsReplaceable host.folder p)

include hclosed hlog hp hplace hreplace

/-- Room is made for a file, or what stands there is spared. -/
theorem ends_renewed : Ends (do
      try Act.removeFile p.text catch
        | .access .missing _ => pure ()
        | e => throw e
      Act.makeFolders p.parent : Act Unit) host
    (fun _ host' => Act.hasNul p.text = false ∧ ∃ tree folder n, host' = { host with tree } ∧
      Renewed host.tree tree host.folder p folder n)
    fun _ host' => ∃ tree, host' = { host with tree } ∧ host.tree.Spares tree place := by
  have htaken : Ends _ host _ _ := ends_taken (p := p) hlog
  refine Ends.bind (htaken.mono (fun _ _ h => h) ?_) ?_
  · rintro _ _ rfl
    exact ⟨_, rfl, Tree.spares_refl _ _⟩
  · rintro _ _ ⟨hnul, t₁, rfl, hremove⟩
    have hnul' : Act.hasNul p.parent.text = false :=
      eq_false_of_ne_true fun h => by
        rw [Path.hasNul_of_parent h] at hnul
        cases hnul
    -- A folder that is there already is left alone.
    have hthere (folder : Place)
        (hfolder : t₁.lookup host.folder p.parent.text = .ok (folder, .folder)) :
        Act.makeFolders p.parent { host with tree := t₁ } = .ok () { host with tree := t₁ } :=
      Act.makeFolders_of_lookup hnul' hfolder
    -- Something was taken away, and its folder stands; or nothing was there to take.
    rcases hremove with hremove | ⟨hmissing, rfl⟩
    · obtain ⟨folder, n, hrenewed⟩ := renewed_of_removeFile hclosed hp hreplace hremove
      exact ends_of_ok (hthere folder hrenewed.lookup_parent) ⟨hnul, t₁, folder, n, rfl, hrenewed⟩
    · have hmake : Ends (Act.makeFolders p.parent) host _ _ :=
        Act.ends_makeFolders_founded hclosed hp.parent
      refine ends_iff.2 ⟨fun _ host' hrun => ?_, fun _ host' hrun => ?_⟩
      · obtain ⟨tree, folder, rfl, hfounded, -, hparent, hnew⟩ := hmake.gives _ _ hrun
        have hsame (folder' : Place)
            (hfolder : host.tree.lookup host.folder p.parent.text = .ok (folder', .folder)) :
            tree = host.tree := by
          have hagain := hthere folder' hfolder
          rw [hrun] at hagain
          injection hagain with _ hhost
          exact congrArg Host.tree hhost
        obtain ⟨n, hrenewed⟩ :=
          renewed_of_missing hclosed hp hreplace hmissing hfounded hparent hsame hnew
        exact ⟨hnul, tree, folder, n, rfl, hrenewed⟩
      · obtain ⟨tree, rfl, hfounded⟩ := hmake.fails _ _ hrun
        exact ⟨tree, rfl, hfounded.spares place⟩

/-- When a database has been opened anew, a file of no bytes has been made. Otherwise nothing else
has been changed, either. -/
theorem ends_opened_renewed : Ends (opened p true) host
    (fun c host' => ∃ tree folder n, c = { storage := .file (folder ++ [n]) } ∧
      host' = { host with tree := tree.put (folder ++ [n]) (.file (.bytes [])) } ∧
      Ready host.tree tree host.folder p folder n)
    fun _ host' => ∃ tree, host' = { host with tree } ∧ host.tree.Spares tree place := by
  have hrenew := ends_renewed hclosed hlog hp hplace hreplace
  unfold opened
  extract_lets refuse
  rw [if_pos rfl]
  refine Ends.bind (hrenew.tryCatch ?_) ?_
  · -- The handler changes the error only.
    rintro e _ ⟨tree, rfl, hspares⟩
    split
    · exact ends_throw ⟨tree, rfl, hspares⟩
    · exact ends_throw ⟨tree, rfl, hspares⟩
  · rintro _ _ ⟨hnul, tree, folder, n, rfl, hrenewed⟩
    have hspares := hrenewed.spares hclosed hp hplace
    -- The file that is planted stands at the new place, whatever the path led to before.
    refine ends_bind_get ?_
    simp only [ofText_text_of_isGrounded hp]
    cases hstorage : storageOf { path := p.text } tree host.folder with
    | error fault => exact ends_throw ⟨tree, rfl, hspares⟩
    | ok storage =>
      have hlink : ∀ target, tree.get? (folder ++ [n]) ≠ some (.link target) := by
        rw [hrenewed.get?_eq_none]
        exact nofun
      unfold storageOf at hstorage
      rw [isInMemory_of_isGrounded hp] at hstorage
      simp only [Bool.false_eq_true, ↓reduceIte] at hstorage
      split at hstorage
      · rename_i spot hspot
        obtain ⟨rfl, hshort, -⟩ := placeOf?_of_keeps hp hrenewed.names_eq hrenewed.ne_up
          hrenewed.lookup_parent hrenewed.isClosed hlink hspot
        simp only [Address.modelFile?, Address.option?, List.find?_nil, Option.map_none,
          hrenewed.get?_eq_none] at hstorage
        split at hstorage
        · cases hstorage
          refine ends_of_ok rfl ⟨tree, folder, n, ?_, ?_, hrenewed, hnul, hshort, hspot⟩
          · rw [Address.isReadOnly_of_path]
          · rw [Storage.plant, hrenewed.get?_eq_none]
            rfl
        · cases hstorage
      · cases hstorage

end Opening

end Store

end ImportAtlas
