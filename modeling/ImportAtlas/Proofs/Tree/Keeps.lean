import ImportAtlas.Proofs.Tree.Leads

/-!
# Walks where more is there

A tree keeps what another one has if every folder and link of it is still there, and every file is
still a file. Then what a path led to is still where it leads, and the free name that a path led to
is where the path finds what has been put there. One way to keep a tree is to found folders in it,
at names that are free.

## Key results

- `Tree.Keeps.walk_followed`: a walk ends at the same place when more is there
- `Tree.exists_walk_append`: a walk goes on from the folder that its first steps lead to
- `Tree.lookup_erase`: what is taken away is on the way to no folder, unless it is a link to one
- `Tree.Founded.trans`, `Tree.Founded.get?_file_iff`: new folders and nothing else
-/

namespace ImportAtlas

variable {α : Type}

namespace Tree

variable {t t' t'' t₀ : Tree α} {here place folder : Place} {entry : Entry α} {content : α}
  {last : LastStep} {budget : Nat} {steps front : List String} {spot : Spot α} {n : String}

/-! ## Last names -/

/-- A walk by one name finds what stands there, and does not look at it if it is a link that is
kept. -/
theorem walk_name (hfolder : t.isFolder folder = true) (hstay : ¬ (n = "" ∨ n = "."))
    (hup : n ≠ "..")
    (hlast : last = .kept ∨ ∀ target, t.get? (folder ++ [n]) ≠ some (.link target)) :
    t.walk last budget folder [n] =
      if isLongName n then .error .longName else .ok (t.spotAt (folder ++ [n])) := by
  by_cases hlong : isLongName n = true
  · rw [walk, hfolder, if_neg (by simp), if_neg hstay, if_neg hup, if_neg (by simp), if_pos hlong,
      if_pos hlong]
  · rw [if_neg hlong]
    have hdown : GoesDown last n [] := ⟨hstay, hup, fun h => by simp at h, hlong⟩
    cases hget : t.get? (folder ++ [n]) with
    | none => rw [walk_free hfolder hdown hget, spotAt_of_get?_eq_none hget]
    | some entry =>
      rw [spotAt_of_get? hget]
      -- A link is found as it is, for it is kept; at any other entry the walk ends anyway.
      by_cases hlink : ∃ target, entry = .link target
      · obtain ⟨target, rfl⟩ := hlink
        obtain rfl := hlast.resolve_right fun hno => hno target hget
        exact walk_kept hfolder hdown hget
      · rw [walk_down hfolder hdown hget (not_exists.1 hlink), walk_nil hget]

/-- What is behind a step does not matter, unless it may end a path that is to be made. -/
theorem goesDown_of_ne (hstay : ¬ (n = "" ∨ n = ".")) (hup : ¬ n = "..")
    (hshort : ¬ isLongName n = true) (hsteps : steps ≠ [""]) : GoesDown last n steps :=
  ⟨hstay, hup, fun h => hsteps h.2, hshort⟩

/-- A walk to a folder goes on from there by a further name, however links are treated at its
end. -/
theorem exists_walk_append
    (hwalk : t.walk .followed budget here front = .ok (.present folder .folder))
    (hname : n ≠ "") : ∃ budget', ∀ last,
      t.walk last budget here (front ++ [n]) = t.walk last budget' folder [n] := by
  have hmore (rest : List String) : rest ++ [n] ≠ [""] := by
    intro heq
    cases rest with
    | nil => exact hname (List.cons.inj heq).1
    | cons m rest => simp at heq
  generalize hlast : LastStep.followed = how at hwalk
  fun_induction walk t how budget here front with
  | case1 budget here entry hget =>
    cases hwalk
    exact ⟨budget, fun _ => rfl⟩
  | case4 budget here step rest hfolder hstay ih =>
    obtain ⟨budget', ih⟩ := ih hwalk
    refine ⟨budget', fun last => ?_⟩
    rw [List.cons_append, walk_stay (by simpa using hfolder) hstay, ih]
  | case5 budget here rest hfolder hstay ih =>
    obtain ⟨budget', ih⟩ := ih hwalk
    refine ⟨budget', fun last => ?_⟩
    rw [List.cons_append, walk_up (by simpa using hfolder), ih]
  -- A walk that follows all links does not end at one.
  | case10 budget here step rest hfolder hstay hup hmade hlong target hget hkept =>
    subst hlast
    cases hkept.2
  | case12 here step rest hfolder hstay hup hmade hlong target hget hkept budget ih =>
    obtain ⟨budget', ih⟩ := ih hwalk
    refine ⟨budget', fun last => ?_⟩
    -- The link is not at the end any more, so it is followed even if the last one is kept.
    rw [List.cons_append, walk_through (by simpa using hfolder)
      (goesDown_of_ne hstay hup hlong (hmore rest)) hget (by simp), ← ih, List.append_assoc]
  | case13 budget here step rest hfolder hstay hup hmade hlong entry hlink hget ih =>
    obtain ⟨budget', ih⟩ := ih hwalk
    refine ⟨budget', fun last => ?_⟩
    rw [List.cons_append, walk_down (by simpa using hfolder)
      (goesDown_of_ne hstay hup hlong (hmore rest)) hget hlink, ih]
  | _ => cases hwalk

/-- A walk by names comes to its last one from a folder. -/
theorem exists_walk_front (hwalk : t.walk last budget here (front ++ [n]) = .ok spot) :
    ∃ folder, t.walk .followed budget here front = .ok (.present folder .folder) := by
  generalize hsteps : front ++ [n] = steps at hwalk
  -- Without names in front, the walk is at the folder from which it goes on.
  have hnone (budget : Nat) (here : Place) (hfolder : ¬ (!t.isFolder here) = true) :
      ∃ folder, t.walk .followed budget here [] = .ok (.present folder .folder) :=
    ⟨here, walk_nil (isFolder_iff.1 (by simpa using hfolder))⟩
  fun_induction walk t last budget here steps generalizing front with
  | case1 budget here entry hget => simp at hsteps
  | case4 budget here step steps hfolder hstay ih =>
    cases front with
    | nil => exact hnone budget here hfolder
    | cons m front =>
      cases hsteps
      rw [walk_stay (by simpa using hfolder) hstay]
      exact ih rfl hwalk
  | case5 budget here steps hfolder hstay ih =>
    cases front with
    | nil => exact hnone budget here hfolder
    | cons m front =>
      cases hsteps
      rw [walk_up (by simpa using hfolder)]
      exact ih rfl hwalk
  | case8 budget here step hfolder hstay hup hlong hget hmade =>
    cases front with
    | nil => exact hnone budget here hfolder
    | cons m front => simp at hsteps
  | case10 budget here step steps hfolder hstay hup hmade hlong target hget hkept =>
    obtain ⟨rfl, -⟩ := hkept
    cases front with
    | nil => exact hnone budget here hfolder
    | cons m front => simp at hsteps
  -- The target of the link takes the place of its name, so the front grows.
  | case12 here step steps hfolder hstay hup hmade hlong target hget hkept budget ih =>
    cases front with
    | nil => exact hnone (budget + 1) here hfolder
    | cons m front =>
      cases hsteps
      rw [walk_through (by simpa using hfolder) (goesDown_followed hstay hup hlong) hget
        (by simp)]
      exact ih (List.append_assoc _ front _) hwalk
  | case13 budget here step steps hfolder hstay hup hmade hlong entry hlink hget ih =>
    cases front with
    | nil => exact hnone budget here hfolder
    | cons m front =>
      cases hsteps
      rw [walk_down (by simpa using hfolder) (goesDown_followed hstay hup hlong) hget hlink]
      exact ih rfl hwalk
  | _ => cases hwalk

/-- A walk that ends at a folder is at a folder all the way. -/
theorem exists_walk_prefix {names : List String} (hfront : front <+: names)
    (hwalk : t.walk .followed budget here names = .ok (.present place .folder)) :
    ∃ folder, t.walk .followed budget here front = .ok (.present folder .folder) := by
  obtain ⟨rest, rfl⟩ := hfront
  induction rest using List.reverseRecOn generalizing place with
  | nil => exact ⟨place, by rwa [List.append_nil] at hwalk⟩
  | append_singleton rest n ih =>
    rw [← List.append_assoc] at hwalk
    obtain ⟨folder, hbefore⟩ := exists_walk_front hwalk
    exact ih hbefore

/-! ## Trees that keep what is there -/

/-- What one tree has is still there in another, but for what files hold. -/
def Keeps (t t' : Tree α) : Prop :=
  ∀ place entry, t.get? place = some entry →
    ∃ entry', t'.get? place = some entry' ∧ entry'.outline = entry.outline

namespace Keeps

/-- A tree keeps what it has. -/
theorem refl (t : Tree α) : t.Keeps t :=
  fun _ entry hget => ⟨entry, hget, rfl⟩

/-- What is kept twice is kept. -/
theorem trans (h : t.Keeps t') (h' : t'.Keeps t'') : t.Keeps t'' := by
  intro place entry hget
  obtain ⟨entry', hget', houtline⟩ := h place entry hget
  obtain ⟨entry'', hget'', houtline'⟩ := h' place entry' hget'
  exact ⟨entry'', hget'', houtline'.trans houtline⟩

/-- A folder is still one. -/
theorem get?_folder (h : t.Keeps t') (hget : t.get? place = some .folder) :
    t'.get? place = some .folder := by
  obtain ⟨entry', hget', houtline⟩ := h place _ hget
  cases entry' <;> cases houtline
  exact hget'

/-- A link is still the same one. -/
theorem get?_link (h : t.Keeps t') {target : String} (hget : t.get? place = some (.link target)) :
    t'.get? place = some (.link target) := by
  obtain ⟨entry', hget', houtline⟩ := h place _ hget
  cases entry' <;> cases houtline
  exact hget'

/-- So all folders are still there. -/
theorem isFolder (h : t.Keeps t') (hfolder : t.isFolder place = true) :
    t'.isFolder place = true :=
  isFolder_iff.2 (h.get?_folder (isFolder_iff.1 hfolder))

end Keeps

/-- A file is put where nothing is, or over a file. -/
theorem keeps_put_file (hno : ∀ entry, t.get? place = some entry → ∃ content, entry = .file content)
    (content : α) : t.Keeps (t.put place (.file content)) := by
  have hroot : place ≠ [] := by
    rintro rfl
    obtain ⟨content, hfile⟩ := hno _ t.get?_nil
    cases hfile
  intro other entry hget
  -- Where the file is put a file stood or nothing.
  by_cases hsame : place = other
  · subst hsame
    obtain ⟨old, rfl⟩ := hno entry hget
    exact ⟨_, t.get?_put_self hroot _, rfl⟩
  · exact ⟨entry, (t.get?_put_of_ne hsame _).trans hget, rfl⟩

namespace Keeps

/-- A walk that ends elsewhere than at a link ends at the same place in a tree that keeps all that
it came by. -/
theorem walk_followed (h : t.Keeps t') (hwalk : t.walk last budget here steps = .ok spot)
    (hspot : ∀ target, t.get? spot.place ≠ some (.link target))
    (hget : t'.get? spot.place = some entry) (hlink : ∀ target, entry ≠ .link target) :
    t'.walk .followed budget here steps = .ok (.present spot.place entry) := by
  have hfolders (here : Place) (hfolder : ¬ (!t.isFolder here) = true) :
      t'.isFolder here = true :=
    h.isFolder (by simpa using hfolder)
  fun_induction walk t last budget here steps with
  | case1 budget here entry' hget' =>
    cases hwalk
    exact walk_nil hget
  | case4 budget here step rest hfolder hstay ih =>
    rw [walk_stay (hfolders here hfolder) hstay]
    exact ih hwalk
  | case5 budget here rest hfolder hstay ih =>
    rw [walk_up (hfolders here hfolder)]
    exact ih hwalk
  | case8 budget here step hfolder hstay hup hlong hfree hmade =>
    cases hwalk
    -- What has been put at the free name is the end of the walk.
    have hthere : t'.get? (here ++ [step]) = some entry := hget
    rw [walk_down (hfolders here hfolder) (goesDown_followed hstay hup hlong) hthere hlink,
      walk_nil hthere]
    rfl
  -- The spot is no link, so the walk did not end at one.
  | case10 budget here step rest hfolder hstay hup hmade hlong target hget' hkept =>
    cases hwalk
    exact absurd hget' (hspot target)
  | case12 here step rest hfolder hstay hup hmade hlong target hget' hkept budget ih =>
    rw [walk_through (hfolders here hfolder) (goesDown_followed hstay hup hlong)
      (h.get?_link hget') (by simp)]
    exact ih hwalk
  | case13 budget here step rest hfolder hstay hup hmade hlong entry' hlink' hget' ih =>
    obtain ⟨entry'', hget'', houtline⟩ := h _ _ hget'
    rw [walk_down (hfolders here hfolder) (goesDown_followed hstay hup hlong) hget''
      (Entry.ne_link_of_outline houtline hlink')]
    exact ih hwalk
  | _ => cases hwalk

end Keeps

/-! ## Paths -/

/-- A path leads where it led before when more is there. -/
theorem Keeps.lookup_of_locate (h : t.Keeps t') {path : String}
    (hlocate : t.locate here last path = .ok spot)
    (hspot : ∀ target, t.get? spot.place ≠ some (.link target))
    (hget : t'.get? spot.place = some entry) (hlink : ∀ target, entry ≠ .link target) :
    t'.lookup here path = .ok (spot.place, entry) := by
  obtain ⟨hempty, hlong, hwalk⟩ := locate_eq_ok_iff.1 hlocate
  exact lookup_eq_ok_iff.2
    (locate_eq_ok_iff.2 ⟨hempty, hlong, h.walk_followed hwalk hspot hget hlink⟩)

/-- A path to a folder still leads there. -/
theorem Keeps.lookup_folder (h : t.Keeps t') {path : String}
    (hlookup : t.lookup here path = .ok (folder, .folder)) :
    t'.lookup here path = .ok (folder, .folder) := by
  have hget := get?_of_lookup hlookup
  refine h.lookup_of_locate (lookup_eq_ok_iff.1 hlookup) (fun target hlink => ?_)
    (h.get?_folder hget) nofun
  rw [show t.get? folder = _ from hlink] at hget
  cases hget

/-- Behind a folder a path goes on by its last name, however links are treated at its end. -/
theorem exists_locate_eq_walk {p : Path} (hp : p.IsGrounded) (hnames : p.names = front ++ [n])
    (hparent : t.lookup here p.parent.text = .ok (folder, .folder))
    (hlong : isLongPath p.text = false) :
    ∃ budget, ∀ last, t.locate here last p.text = t.walk last budget folder [n] := by
  have hparents : p.parent.names = front := by
    rw [Path.parent, hnames, List.dropLast_concat]
  have hwalk := walk_of_locate (lookup_eq_ok_iff.1 hparent)
  rw [hp.parent.startOf_text, hp.parent.stepsOf_text, hparents] at hwalk
  -- The links on the way to the folder are paid for, and the rest is left for the last step.
  obtain ⟨budget, hmore⟩ := exists_walk_append hwalk fun hempty : n = "" =>
    hp.not_stay_of_mem (by simp [hnames]) (.inl hempty)
  refine ⟨budget, fun last => ?_⟩
  rw [hp.locate_eq, if_neg (ne_true_of_eq_false hlong), hnames, hmore]

/-- Behind a folder a path leads to its last name in it. -/
theorem locate_of_lookup_parent {p : Path} (hp : p.IsGrounded) (hnames : p.names = front ++ [n])
    (hup : n ≠ "..") (hparent : t.lookup here p.parent.text = .ok (folder, .folder))
    (hlong : isLongPath p.text = false)
    (hlast : last = .kept ∨ ∀ target, t.get? (folder ++ [n]) ≠ some (.link target)) :
    t.locate here last p.text =
      if isLongName n then .error .longName else .ok (t.spotAt (folder ++ [n])) := by
  obtain ⟨budget, hwalk⟩ := exists_locate_eq_walk hp hnames hparent hlong
  rw [hwalk]
  exact walk_name (isFolder_iff.2 (get?_of_lookup hparent)) (hp.not_stay_of_mem (by simp [hnames]))
    hup hlast

/-- A path that leads to anything but a folder has a last name, which is that of the spot in the
folder that the names before it lead to. -/
theorem exists_front_of_locate (hclosed : t.IsClosed) {p : Path} (hp : p.IsGrounded)
    (hlocate : t.locate here .kept p.text = .ok spot) (hspot : t.get? spot.place ≠ some .folder) :
    ∃ n folder, p.names = p.parent.names ++ [n] ∧ n ≠ ".." ∧ isLongName n = false ∧
      t.lookup here p.parent.text = .ok (folder, .folder) ∧ spot = t.spotAt (folder ++ [n]) := by
  obtain ⟨-, hlong, hwalk⟩ := locate_eq_ok_iff.1 hlocate
  rw [hp.startOf_text, hp.stepsOf_text] at hwalk
  -- A path without names leads to the root, which is a folder.
  obtain hnil | ⟨front, n, hnames⟩ := List.eq_nil_or_concat p.names
  · rw [hnil, walk_nil t.get?_nil] at hwalk
    cases hwalk
    exact absurd t.get?_nil hspot
  · rw [List.concat_eq_append] at hnames
    have hparents : p.parent.names = front := by
      rw [Path.parent, hnames, List.dropLast_concat]
    rw [hnames] at hwalk
    obtain ⟨folder, hfront⟩ := exists_walk_front hwalk
    have hparent : t.lookup here p.parent.text = .ok (folder, .folder) := by
      rw [lookup_eq_ok_iff, hp.parent.locate_eq, hp.isLongPath_parent hlong,
        if_neg Bool.false_ne_true, hparents, hfront]
    by_cases hup : n = ".."
    · -- Above the folder is a folder.
      obtain ⟨budget, hlast⟩ := exists_locate_eq_walk hp hnames hparent hlong
      have hfolder := isFolder_iff.2 (get?_of_lookup hparent)
      have habove := isFolder_iff.1 (hclosed.isFolder_dropLast hfolder)
      rw [hlast, hup, walk_up hfolder, walk_nil habove] at hlocate
      cases hlocate
      exact absurd habove hspot
    · rw [locate_of_lookup_parent hp hnames hup hparent hlong (.inl rfl)] at hlocate
      split at hlocate
      · cases hlocate
      · rename_i hshort
        cases hlocate
        exact ⟨n, folder, hparents ▸ hnames, hup, by simpa using hshort, hparent, rfl⟩

/-! ## Taking away -/

/-- A walk to a folder ends there also when something else has been taken away, unless that was a
link to a folder. -/
theorem walk_erase (hno : t.get? place ≠ some .folder)
    (hwalk : t.walk .followed budget here steps = .ok (.present folder .folder)) :
    (t.erase place).walk .followed budget here steps = .ok (.present folder .folder) ∨
      ∃ target mid, t.get? place = some (.link target) ∧
        t.Leads (startOf place.dropLast target) (segmentsOf target) mid ∧
          t.isFolder mid = true := by
  generalize hlast : LastStep.followed = last at hwalk ⊢
  have hfolders (here : Place) (hfolder : ¬ (!t.isFolder here) = true) :
      (t.erase place).isFolder here = true :=
    isFolder_erase hno (by simpa using hfolder)
  fun_induction walk t last budget here steps with
  | case1 budget here entry hget =>
    cases hwalk
    exact .inl (walk_nil (isFolder_iff.1 (isFolder_erase hno (isFolder_iff.2 hget))))
  | case4 budget here step steps hfolder hstay ih =>
    rw [walk_stay (hfolders here hfolder) hstay]
    exact ih hwalk
  | case5 budget here steps hfolder hstay ih =>
    rw [walk_up (hfolders here hfolder)]
    exact ih hwalk
  | case10 budget here step steps hfolder hstay hup hmade hlong target hget hkept =>
    subst hlast
    cases hkept.2
  | case12 here step steps hfolder hstay hup hmade hlong target hget hkept budget ih =>
    by_cases hsame : place = here ++ [step]
    · -- The link that is taken away was followed, and led to a folder.
      subst hlast
      obtain ⟨mid, hleads, hmid⟩ := exists_leads_of_walk_append hwalk
      subst hsame
      refine .inr ⟨target, mid, hget, ?_, hmid⟩
      rw [List.dropLast_concat]
      exact (leads_congr (filter_stepsOf target)).1 hleads
    · rw [← get?_erase_of_ne t hsame] at hget
      rw [walk_through (hfolders here hfolder) ⟨hstay, hup, hmade, hlong⟩ hget hkept]
      exact ih hwalk
  | case13 budget here step steps hfolder hstay hup hmade hlong entry hlink hget ih =>
    by_cases hsame : place = here ++ [step]
    · -- A walk does not come to a folder by a file.
      subst hsame
      have hfile : t.isFolder (here ++ [step]) = false :=
        eq_false_of_ne_true fun hfolder => hno (isFolder_iff.1 hfolder)
      obtain ⟨-, hplace⟩ := eq_of_walk_of_not_isFolder hwalk hfile
      have hget := get?_of_walk hwalk
      rw [show folder = _ from hplace] at hget
      exact absurd hget hno
    · rw [← get?_erase_of_ne t hsame] at hget
      rw [walk_down (hfolders here hfolder) ⟨hstay, hup, hmade, hlong⟩ hget hlink]
      exact ih hwalk
  | _ => cases hwalk

/-- Once an entry is taken away, a path leads to the same folder, or the entry was a link to a
folder. -/
theorem lookup_erase {path : String} (hno : t.get? place ≠ some .folder)
    (hlookup : t.lookup here path = .ok (folder, .folder)) :
    (t.erase place).lookup here path = .ok (folder, .folder) ∨
      ∃ target mid, t.get? place = some (.link target) ∧
        t.Leads (startOf place.dropLast target) (segmentsOf target) mid ∧
          t.isFolder mid = true := by
  obtain ⟨hempty, hlong, hwalk⟩ := locate_eq_ok_iff.1 (lookup_eq_ok_iff.1 hlookup)
  exact (walk_erase hno hwalk).imp_left fun hwalk =>
    lookup_eq_ok_iff.2 (locate_eq_ok_iff.2 ⟨hempty, hlong, hwalk⟩)

/-! ## New folders -/

/-- Folders have been founded at names that were free, and nothing else has changed. -/
structure Founded (t t' : Tree α) : Prop where
  isClosed : t'.IsClosed
  get?_cases : ∀ place, t'.get? place = t.get? place ∨
    t.get? place = none ∧ t'.get? place = some .folder

/-- A folder in a free place founds. -/
theorem founded_put (hclosed : t.IsClosed) (hfree : t.get? place = none)
    (habove : t.isFolder place.dropLast = true) : Founded t (t.put place .folder) := by
  have hno : t.get? place ≠ some .folder := by
    rw [hfree]
    exact nofun
  refine ⟨isClosed_put hclosed hno habove _, fun other => ?_⟩
  by_cases hsame : place = other
  · subst hsame
    exact .inr ⟨hfree, t.get?_put_self (ne_nil_of_get?_ne_folder hno) _⟩
  · exact .inl (get?_put_of_ne _ hsame _)

namespace Founded

/-- Nothing need be founded. -/
theorem refl (hclosed : t.IsClosed) : Founded t t :=
  ⟨hclosed, fun _ => .inl rfl⟩

/-- What is founded twice is founded. -/
theorem trans (h : Founded t t') (h' : Founded t' t'') : Founded t t'' := by
  refine ⟨h'.isClosed, fun place => ?_⟩
  rcases h'.get?_cases place with hsame | ⟨hfree, hfolder⟩
  · rw [hsame]
    exact h.get?_cases place
  · rcases h.get?_cases place with hsame | ⟨-, hfolder'⟩
    · exact .inr ⟨hsame ▸ hfree, hfolder⟩
    · rw [hfree] at hfolder'
      cases hfolder'

/-- What stood somewhere before stands there still. -/
theorem get?_of_some (h : Founded t t') (hget : t.get? place = some entry) :
    t'.get? place = some entry := by
  rcases h.get?_cases place with hsame | ⟨hfree, -⟩
  · rw [hsame, hget]
  · rw [hget] at hfree
    cases hfree

/-- Founding keeps what is there. -/
theorem keeps (h : Founded t t') : t.Keeps t' :=
  fun _ entry hget => ⟨entry, h.get?_of_some hget, rfl⟩

/-- New folders change no file and are none. -/
theorem get?_iff (h : Founded t t') (place : Place) {entry : Entry α} (hne : entry ≠ .folder) :
    t'.get? place = some entry ↔ t.get? place = some entry := by
  refine ⟨fun hget => ?_, h.get?_of_some⟩
  rcases h.get?_cases place with hsame | ⟨-, hfolder⟩
  · rw [← hsame, hget]
  · rw [hget] at hfolder
    exact absurd (Option.some_inj.1 hfolder) hne

/-- It makes and removes no file. -/
theorem get?_file_iff (h : Founded t t') (place : Place) (content : α) :
    t'.get? place = some (.file content) ↔ t.get? place = some (.file content) :=
  h.get?_iff place nofun

/-- Nor a link. -/
theorem get?_link_iff (h : Founded t t') (place : Place) (target : String) :
    t'.get? place = some (.link target) ↔ t.get? place = some (.link target) :=
  h.get?_iff place nofun

/-- A tree goes with an earlier one even when folders are founded, if the names that are free by
then were no links before. -/
theorem goesWith (h : Founded t t') (h₀ : t₀.GoesWith t)
    (hfree : ∀ place, t.get? place = none → ∀ target, t₀.get? place ≠ some (.link target)) :
    t₀.GoesWith t' where
  get?_link place target hget := h₀.get?_link place target ((h.get?_link_iff place target).1 hget)
  ne_link place hfolder := by
    rcases h.get?_cases place with hsame | ⟨hnone, -⟩
    · apply h₀.ne_link
      rw [isFolder_iff, ← hsame]
      exact isFolder_iff.1 hfolder
    · exact hfree place hnone

end Founded

end Tree

end ImportAtlas
