import ImportAtlas.Tree.Update

/-!
# Trees that differ in what their files hold

Where a path leads depends on folders, links and the places of files, but not on what the files
hold. So a path leads to the same place in two trees that differ in nothing else.

## Key results

- `Tree.SameOutline.walk_eq`: a walk ends at the same place
- `Tree.SameOutline.leadsToFile_eq`: the same paths lead to files
- `Tree.sameEntries_put`: writing over a file keeps the entries and their order
-/

namespace ImportAtlas

variable {α : Type}

/-- An entry without the content of a file. -/
def Entry.outline : Entry α → Entry Unit
  | .file _ => .file ()
  | .folder => .folder
  | .link target => .link target

/-- Whether an entry is a file. -/
def Entry.isFile : Entry α → Bool
  | .file _ => true
  | _ => false

/-- Whether an entry is a folder. -/
def Entry.isFolder : Entry α → Bool
  | .folder => true
  | _ => false

/-- What has the outline of anything but a link is no link. -/
theorem Entry.ne_link_of_outline {entry entry' : Entry α} (h : entry'.outline = entry.outline)
    (hlink : ∀ target, entry ≠ .link target) (target : String) : entry' ≠ .link target := by
  rintro rfl
  cases entry with
  | link target' => exact hlink target' rfl
  | file content => cases h
  | folder => cases h

/-- The place of a spot. -/
def Spot.place : Spot α → Place
  | .present place _ => place
  | .vacant place => place

/-- A spot, with the entry that `t` has there. -/
def Spot.seenIn (t : Tree α) : Spot α → Spot α
  | .present place entry => .present place ((t.get? place).getD entry)
  | .vacant place => .vacant place

namespace Tree

variable {t t' : Tree α} {place : Place} {entry : Entry α}

/-- Two trees have the same entries everywhere but for the contents of files. -/
def SameOutline (t t' : Tree α) : Prop :=
  ∀ place, (t'.get? place).map Entry.outline = (t.get? place).map Entry.outline

/-! ## One step of a walk -/

section Step

variable {last : LastStep} {budget : Nat} {here : Place} {step : String} {rest : List String}

/-- A step goes down by a name that is not too long, and it is not the end of a path that is to be
made and has a slash behind it. -/
structure GoesDown (last : LastStep) (step : String) (rest : List String) : Prop where
  not_stay : ¬ (step = "" ∨ step = ".")
  ne_up : ¬ step = ".."
  not_made : ¬ (last = .made ∧ rest = [""])
  short : ¬ isLongName step = true

/-- When links are followed, nothing is made. -/
theorem goesDown_followed (hstay : ¬ (step = "" ∨ step = ".")) (hup : ¬ step = "..")
    (hshort : ¬ isLongName step = true) : GoesDown .followed step rest :=
  ⟨hstay, hup, (nomatch ·.1), hshort⟩

/-- A walk without steps stays where it is, if something stands there. -/
theorem walk_nil (hget : t.get? here = some entry) :
    t.walk last budget here [] = .ok (.present here entry) := by
  rw [walk, hget]

/-- Some steps stay in the folder. -/
theorem walk_stay (hfolder : t.isFolder here = true) (hstay : step = "" ∨ step = ".") :
    t.walk last budget here (step :: rest) = t.walk last budget here rest := by
  rw [walk, hfolder, if_neg (by simp), if_pos hstay]

/-- A step up leads to the folder above, and stays in the root. -/
theorem walk_up (hfolder : t.isFolder here = true) :
    t.walk last budget here (".." :: rest) = t.walk last budget here.dropLast rest := by
  rw [walk, hfolder, if_neg (by simp), if_neg (by decide), if_pos rfl]

/-- What stands at a name is the place to go on from, unless it is a link. -/
theorem walk_down (hfolder : t.isFolder here = true) (hdown : GoesDown last step rest)
    (hget : t.get? (here ++ [step]) = some entry) (hlink : ∀ target, entry ≠ .link target) :
    t.walk last budget here (step :: rest) = t.walk last budget (here ++ [step]) rest := by
  rw [walk, hfolder, if_neg (by simp), if_neg hdown.not_stay, if_neg hdown.ne_up,
    if_neg hdown.not_made, if_neg hdown.short, hget]
  -- What is no link is stepped into.
  cases entry with
  | link target => exact absurd rfl (hlink target)
  | file content => rfl
  | folder => rfl

/-- The target of a link comes before the steps that are left. -/
theorem walk_through (hfolder : t.isFolder here = true) (hdown : GoesDown last step rest)
    {target : String} (hget : t.get? (here ++ [step]) = some (.link target))
    (hkept : ¬ (rest = [] ∧ last = .kept)) :
    t.walk last (budget + 1) here (step :: rest) =
      t.walk last budget (startOf here target) (stepsOf target ++ rest) := by
  rw [walk, hfolder, if_neg (by simp), if_neg hdown.not_stay, if_neg hdown.ne_up,
    if_neg hdown.not_made, if_neg hdown.short, hget]
  exact if_neg hkept

/-- A link at the last name is the end of the walk if it is to be kept. -/
theorem walk_kept (hfolder : t.isFolder here = true) (hdown : GoesDown .kept step [])
    {target : String} (hget : t.get? (here ++ [step]) = some (.link target)) :
    t.walk .kept budget here [step] = .ok (.present (here ++ [step]) (.link target)) := by
  rw [walk, hfolder, if_neg (by simp), if_neg hdown.not_stay, if_neg hdown.ne_up,
    if_neg hdown.not_made, if_neg hdown.short, hget]
  exact if_pos ⟨rfl, rfl⟩

/-- A last name at which nothing stands is free. -/
theorem walk_free (hfolder : t.isFolder here = true) (hdown : GoesDown last step [])
    (hget : t.get? (here ++ [step]) = none) :
    t.walk last budget here [step] = .ok (.vacant (here ++ [step])) := by
  rw [walk, hfolder, if_neg (by simp), if_neg hdown.not_stay, if_neg hdown.ne_up,
    if_neg hdown.not_made, if_neg hdown.short, hget]
  rfl

/-- A link that leads back to itself is followed as often as links may be. -/
theorem walk_circle (hfolder : t.isFolder here = true) (hdown : GoesDown .followed step [])
    (hget : t.get? (here ++ [step]) = some (.link step)) (hstart : startOf here step = here)
    (hsteps : stepsOf step = [step]) (budget : Nat) :
    t.walk .followed budget here [step] = .error .manyLinks := by
  -- The link leads to itself, so each turn costs one link and nothing else changes.
  induction budget with
  | zero =>
    rw [walk, hfolder, if_neg (by simp), if_neg hdown.not_stay, if_neg hdown.ne_up,
      if_neg hdown.not_made, if_neg hdown.short, hget]
    rfl
  | succ budget ih =>
    rw [walk_through hfolder hdown hget (by simp), hstart, hsteps, List.append_nil]
    exact ih

end Step

/-! ## Whole walks -/

/-- What stands at a place, as a walk finds it. -/
def spotAt (t : Tree α) (place : Place) : Spot α :=
  match t.get? place with
  | some entry => .present place entry
  | none => .vacant place

/-- An entry is found present at its place. -/
theorem spotAt_of_get? (h : t.get? place = some entry) : t.spotAt place = .present place entry := by
  rw [spotAt, h]

/-- A free place is found vacant. -/
theorem spotAt_of_get?_eq_none (h : t.get? place = none) : t.spotAt place = .vacant place := by
  rw [spotAt, h]

/-- A place is present if the entry stands there. -/
theorem present_eq_spotAt_iff {other : Place} :
    .present other entry = t.spotAt place ↔ other = place ∧ t.get? place = some entry := by
  unfold spotAt
  split <;> rename_i hget <;> simp [hget, eq_comm]

/-- A place is vacant if it is free. -/
theorem vacant_eq_spotAt_iff {other : Place} :
    .vacant other = t.spotAt place ↔ other = place ∧ t.get? place = none := by
  unfold spotAt
  split <;> rename_i hget <;> simp [hget]

/-- A walk ends at what stands where it ends. -/
theorem eq_spotAt_of_walk {last : LastStep} {budget : Nat} {here : Place} {steps : List String}
    {spot : Spot α} (h : t.walk last budget here steps = .ok spot) :
    spot = t.spotAt spot.place := by
  -- No step is left, or the last one is a free name, or a link that is kept.
  fun_induction walk t last budget here steps with
  | case1 budget here entry hget =>
    cases h
    exact (spotAt_of_get? hget).symm
  | case4 budget here step rest hfolder hstay ih => exact ih h
  | case5 budget here rest hfolder hstay ih => exact ih h
  | case8 budget here step hfolder hstay hup hlong hget hmade =>
    cases h
    exact (spotAt_of_get?_eq_none hget).symm
  | case10 budget here step rest hfolder hstay hup hmade hlong target hget hkept =>
    cases h
    exact (spotAt_of_get? hget).symm
  | case12 here step rest hfolder hstay hup hmade hlong target hget hkept budget ih => exact ih h
  | case13 budget here step rest hfolder hstay hup hmade hlong entry hlink hget ih => exact ih h
  | _ => cases h

/-- A walk finds what stands at the place. -/
theorem get?_of_walk {last : LastStep} {budget : Nat} {here : Place} {steps : List String}
    (h : t.walk last budget here steps = .ok (.present place entry)) :
    t.get? place = some entry :=
  (present_eq_spotAt_iff.1 (eq_spotAt_of_walk h)).2

/-- At a free name where a walk ends nothing stands. -/
theorem get?_of_walk_vacant {last : LastStep} {budget : Nat} {here : Place} {steps : List String}
    (h : t.walk last budget here steps = .ok (.vacant place)) : t.get? place = none :=
  (vacant_eq_spotAt_iff.1 (eq_spotAt_of_walk h)).2

/-- So a free name is not the root, which is a folder. -/
theorem ne_nil_of_walk {last : LastStep} {budget : Nat} {here : Place} {steps : List String}
    (h : t.walk last budget here steps = .ok (.vacant place)) : place ≠ [] := by
  rintro rfl
  have hfree := get?_of_walk_vacant h
  rw [get?_nil] at hfree
  cases hfree

/-- A walk that ends at a free name ends in a folder. -/
theorem isFolder_of_walk_vacant {last : LastStep} {budget : Nat} {here : Place}
    {steps : List String} (hwalk : t.walk last budget here steps = .ok (.vacant place)) :
    t.isFolder place.dropLast = true := by
  fun_induction walk t last budget here steps with
  | case4 budget here step rest hfolder hstay ih => exact ih hwalk
  | case5 budget here rest hfolder hstay ih => exact ih hwalk
  -- A place is free only below a folder that was walked into.
  | case8 budget here step hfolder hstay hup hlong hget hmade =>
    cases hwalk
    rw [List.dropLast_concat]
    simpa using hfolder
  | case12 here step rest hfolder hstay hup hmade hlong target hget hkept budget ih =>
    exact ih hwalk
  | case13 budget here step rest hfolder hstay hup hmade hlong entry hlink hget ih =>
    exact ih hwalk
  | _ => cases hwalk

/-- A path that is neither empty nor too long leads where its steps do. -/
theorem locate_eq_ok_iff {here : Place} {last : LastStep} {path : String} {spot : Spot α} :
    t.locate here last path = .ok spot ↔ path ≠ "" ∧ isLongPath path = false ∧
      t.walk last linkBudget (startOf here path) (stepsOf path) = .ok spot := by
  unfold locate
  by_cases hempty : path = ""
  · simp [hempty]
  · rw [if_neg hempty]
    cases hlong : isLongPath path with
    | true => simp
    | false => simp [hempty]

/-- To look a path up is to locate it with all links followed. -/
theorem lookup_eq_ok_iff {here : Place} {path : String} : t.lookup here path = .ok (place, entry) ↔
    t.locate here .followed path = .ok (.present place entry) := by
  unfold lookup
  constructor
  · intro h
    -- A free place is no entry, so only an entry that was reached is found.
    split at h
    · rename_i hlocate
      cases h
      exact hlocate
    · cases h
    · cases h
  · intro h
    rw [h]

/-- To locate a path is to walk its steps. -/
theorem walk_of_locate {here : Place} {last : LastStep} {path : String} {spot : Spot α}
    (h : t.locate here last path = .ok spot) :
    t.walk last linkBudget (startOf here path) (stepsOf path) = .ok spot :=
  (locate_eq_ok_iff.1 h).2.2

/-- A path that leads to an entry leads to one, or to a link, when links are kept. -/
theorem exists_walk_kept {budget : Nat} {here : Place} {steps : List String}
    (h : t.walk .followed budget here steps = .ok (.present place entry)) :
    ∃ place' entry', t.walk .kept budget here steps = .ok (.present place' entry') := by
  generalize hlast : LastStep.followed = last at h
  fun_induction walk t last budget here steps with
  | case1 budget here entry' hget => exact ⟨here, entry', walk_nil hget⟩
  | case4 budget here step rest hfolder hstay ih =>
    rw [walk_stay (by simpa using hfolder) hstay]
    exact ih h
  | case5 budget here rest hfolder hstay ih =>
    rw [walk_up (by simpa using hfolder)]
    exact ih h
  | case10 budget here step rest hfolder hstay hup hmade hlong target hget hkept =>
    subst hlast
    cases hkept.2
  | case12 here step rest hfolder hstay hup hmade hlong target hget hkept budget ih =>
    have hdown : GoesDown .kept step rest := ⟨hstay, hup, (nomatch ·.1), hlong⟩
    -- The last link is where the two walks part: one stops at it, the other one went on and came
    -- through.
    by_cases hrest : rest = []
    · subst hrest
      exact ⟨_, _, walk_kept (by simpa using hfolder) hdown hget⟩
    · rw [walk_through (by simpa using hfolder) hdown hget fun hno => hrest hno.1]
      exact ih h
  | case13 budget here step rest hfolder hstay hup hmade hlong entry' hlink hget ih =>
    have hdown : GoesDown .kept step rest := ⟨hstay, hup, (nomatch ·.1), hlong⟩
    rw [walk_down (by simpa using hfolder) hdown hget hlink]
    exact ih h
  | _ => cases h

/-- What can be written to is a free name, or a file that is there. -/
theorem locate_of_filePlace {here : Place} {path : String} (h : t.filePlace here path = .ok place) :
    t.locate here .made path = .ok (.vacant place) ∨
      ∃ content, t.locate here .made path = .ok (.present place (.file content)) := by
  unfold filePlace at h
  -- A folder or a link in the way is refused.
  split at h
  · rename_i hlocate
    cases h
    exact .inl hlocate
  · rename_i content hlocate
    cases h
    exact .inr ⟨content, hlocate⟩
  · cases h
  · cases h

/-- A path that is looked up gives what stands at its place. -/
theorem get?_of_lookup {here : Place} {path : String}
    (h : t.lookup here path = .ok (place, entry)) : t.get? place = some entry := by
  unfold lookup at h
  -- Only a place with an entry is given back.
  split at h
  · rename_i hlocate
    cases h
    exact get?_of_walk (walk_of_locate hlocate)
  · cases h
  · cases h

namespace SameOutline

/-- Trees of the same outline are so either way. -/
theorem symm (h : t.SameOutline t') : t'.SameOutline t :=
  fun place => (h place).symm

/-- A place that is free is free in both. -/
theorem get?_eq_none (h : t.SameOutline t') (hget : t.get? place = none) :
    t'.get? place = none := by
  have hplace := h place
  rwa [hget, Option.map_none, Option.map_eq_none_iff] at hplace

/-- An entry is matched by one of its kind. -/
theorem exists_get? (h : t.SameOutline t') (hget : t.get? place = some entry) :
    ∃ entry', t'.get? place = some entry' ∧ entry'.outline = entry.outline := by
  have hplace := h place
  rwa [hget, Option.map_some, Option.map_eq_some_iff] at hplace

/-- A link is the same link in both. -/
theorem get?_eq_link (h : t.SameOutline t') {target : String}
    (hget : t.get? place = some (.link target)) : t'.get? place = some (.link target) := by
  obtain ⟨entry', hget', houtline⟩ := h.exists_get? hget
  cases entry' <;> cases houtline
  exact hget'

/-- Folders are the same in both. -/
theorem isFolder_eq (h : t.SameOutline t') (place : Place) :
    t'.isFolder place = t.isFolder place := by
  unfold isFolder
  cases hget : t.get? place with
  | none => rw [h.get?_eq_none hget]
  | some entry =>
    obtain ⟨entry', hget', houtline⟩ := h.exists_get? hget
    rw [hget']
    -- Entries of one outline are folders together.
    cases entry <;> cases entry' <;> cases houtline <;> rfl

/-- A walk ends at the same place in both trees. -/
theorem walk_eq (h : t.SameOutline t') (last : LastStep) (budget : Nat) (here : Place)
    (steps : List String) :
    t'.walk last budget here steps = (t.walk last budget here steps).map (Spot.seenIn t') := by
  -- The other tree takes the same branch at each step.
  have hfolders (here : Place) (hfolder : ¬ (!t.isFolder here) = true) :
      t'.isFolder here = true := by
    rw [h.isFolder_eq]
    simpa using hfolder
  fun_induction walk t last budget here steps with
  | case1 budget here entry hget =>
    obtain ⟨entry', hget', -⟩ := h.exists_get? hget
    rw [walk_nil hget', Except.map, Spot.seenIn, hget', Option.getD_some]
  | case2 budget here hget =>
    rw [walk, h.get?_eq_none hget]
    rfl
  | case3 budget here step rest hfolder =>
    rw [walk, h.isFolder_eq, if_pos hfolder]
    rfl
  | case4 budget here step rest hfolder hstay ih => rw [walk_stay (hfolders here hfolder) hstay, ih]
  | case5 budget here rest hfolder hstay ih => rw [walk_up (hfolders here hfolder), ih]
  | case6 budget here step rest hfolder hstay hup hmade =>
    rw [walk, h.isFolder_eq, if_neg hfolder, if_neg hstay, if_neg hup, if_pos hmade]
    rfl
  | case7 budget here step rest hfolder hstay hup hmade hlong =>
    rw [walk, h.isFolder_eq, if_neg hfolder, if_neg hstay, if_neg hup, if_neg hmade, if_pos hlong]
    rfl
  | case8 budget here step hfolder hstay hup hlong hget hmade =>
    rw [walk_free (hfolders here hfolder) ⟨hstay, hup, hmade, hlong⟩ (h.get?_eq_none hget)]
    rfl
  | case9 budget here step rest hfolder hstay hup hmade hlong hget hrest =>
    rw [walk, h.isFolder_eq, if_neg hfolder, if_neg hstay, if_neg hup, if_neg hmade, if_neg hlong,
      h.get?_eq_none hget]
    exact if_neg hrest
  | case10 budget here step rest hfolder hstay hup hmade hlong target hget hkept =>
    obtain ⟨rfl, rfl⟩ := hkept
    have hget' := h.get?_eq_link hget
    rw [walk_kept (hfolders here hfolder) ⟨hstay, hup, hmade, hlong⟩ hget', Except.map, Spot.seenIn,
      hget', Option.getD_some]
  | case11 here step rest hfolder hstay hup hmade hlong target hget hkept =>
    rw [walk, h.isFolder_eq, if_neg hfolder, if_neg hstay, if_neg hup, if_neg hmade, if_neg hlong,
      h.get?_eq_link hget]
    exact if_neg hkept
  | case12 here step rest hfolder hstay hup hmade hlong target hget hkept budget ih =>
    rw [walk_through (hfolders here hfolder) ⟨hstay, hup, hmade, hlong⟩ (h.get?_eq_link hget) hkept,
      ih]
  -- An entry that is no link has an outline that is none.
  | case13 budget here step rest hfolder hstay hup hmade hlong entry hlink hget ih =>
    obtain ⟨entry', hget', houtline⟩ := h.exists_get? hget
    rw [walk_down (hfolders here hfolder) ⟨hstay, hup, hmade, hlong⟩ hget'
      (Entry.ne_link_of_outline houtline hlink), ih]

/-- A path leads to the same place in both trees. -/
theorem lookup_eq (h : t.SameOutline t') (here : Place) (path : String) :
    t'.lookup here path =
      (t.lookup here path).map fun found => (found.1, (t'.get? found.1).getD found.2) := by
  unfold lookup locate
  -- The two checks of the text come first, and the walk sees the outline only.
  by_cases hempty : path = ""
  · rw [if_pos hempty, if_pos hempty]
    rfl
  · by_cases hlong : isLongPath path
    · rw [if_neg hempty, if_pos hlong, if_neg hempty, if_pos hlong]
      rfl
    · rw [if_neg hempty, if_neg hlong, if_neg hempty, if_neg hlong, h.walk_eq]
      cases t.walk .followed linkBudget (startOf here path) (stepsOf path) with
      | error fault => rfl
      | ok spot => cases spot <;> rfl

/-- The same paths lead to files in both trees. -/
theorem leadsToFile_eq (h : t.SameOutline t') (here : Place) (path : String) :
    t'.leadsToFile here path = t.leadsToFile here path := by
  unfold leadsToFile
  rw [h.lookup_eq]
  cases hlookup : t.lookup here path with
  | error fault => rfl
  | ok found =>
    -- Both lookups end at one place, with entries of one outline.
    obtain ⟨place, entry⟩ := found
    obtain ⟨entry', hget', houtline⟩ := h.exists_get? (get?_of_lookup hlookup)
    simp only [Except.map, hget', Option.getD_some]
    cases entry <;> cases entry' <;> cases houtline <;> rfl

end SameOutline

/-- Two trees list the same entries in the same order, but for what files hold. -/
def SameEntries (t t' : Tree α) : Prop :=
  t'.entries.map (Prod.map id Entry.outline) = t.entries.map (Prod.map id Entry.outline)

namespace SameEntries

variable {t'' : Tree α}

/-- A tree has its own entries. -/
theorem refl (t : Tree α) : t.SameEntries t :=
  rfl

/-- Trees with the same entries have them either way. -/
theorem symm (h : t.SameEntries t') : t'.SameEntries t :=
  Eq.symm h

/-- What has the entries of one that has those of a third has those of the third. -/
theorem trans (h : t.SameEntries t') (h' : t'.SameEntries t'') : t.SameEntries t'' :=
  Eq.trans h' h

/-- With the same entries the outline is the same. -/
theorem sameOutline (h : t.SameEntries t') : t.SameOutline t' := by
  intro place
  unfold get? Dictionary.get?
  split
  · rfl
  · -- Looking up comes before or after taking the outline.
    have hfind (entries : List (Place × Entry α)) :
        ((entries.find? fun e => e.1 == place).map (·.2)).map Entry.outline =
          (((entries.map (Prod.map id Entry.outline)).find? fun e => e.1 == place).map (·.2)) := by
      rw [List.find?_map, Option.map_map, Option.map_map]
      rfl
    rw [hfind, hfind, h]

end SameEntries

/-- Writing over what a file holds keeps all entries. -/
theorem sameEntries_put {content : α} (hroot : place ≠ [])
    (hget : t.get? place = some (.file content)) (content' : α) :
    t.SameEntries (t.put place (.file content')) := by
  rw [get?, if_neg hroot] at hget
  unfold SameEntries put
  dsimp only
  generalize t.entries = entries at hget
  induction entries with
  | nil => cases hget
  | cons e entries ih =>
    rw [Dictionary.put]
    rw [Dictionary.get?, List.find?_cons] at hget
    cases hkey : e.1 == place with
    | true =>
      -- The entry that is replaced has the place of the file, so the list keeps its order.
      rw [hkey] at hget
      obtain ⟨place', entry⟩ := e
      cases hget
      rfl
    | false =>
      rw [hkey] at hget
      rw [if_neg Bool.false_ne_true, List.map_cons, List.map_cons, ih hget]

end Tree

end ImportAtlas
