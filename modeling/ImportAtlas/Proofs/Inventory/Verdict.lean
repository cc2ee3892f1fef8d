import ImportAtlas.Proofs.Inventory
import ImportAtlas.Proofs.Tree.Plain
import Mathlib.Data.List.Sort

/-!
# Walking, entry by entry

Each entry below a directory is looked at, and then it is passed, excluded or kept. Which of the
three, depends on nothing that was found before.

## Key results

- `Inventory.visit_eq`: a step of the walk notes what becomes of an entry
- `Inventory.verdict_eq_kept_iff`: which paths are kept
- `Inventory.gives_visits`, `Inventory.visits_of_examined`: the walk through all entries
- `Inventory.sorted_eq_of_mem_iff`: the order in which files are found is of no account
-/

namespace ImportAtlas

open EStateM

namespace Inventory

/-- What becomes of a path that is walked through. -/
inductive Verdict where
  | passed
  | excluded
  | kept

/-- What becomes of a path below `root`: only files with one of the extensions count. -/
def verdict (extensions : List String) (patterns : List Value) (root p : Path) : Act Verdict := do
  if !hasExtension extensions p then
    return .passed
  else if !(← Act.isFile p.text) then
    return .passed
  else if ← isExcluded patterns root p then
    return .excluded
  else
    return .kept

/-- What becomes of an entry. Where a link leads must be a question that can be asked. -/
def examine (extensions : List String) (patterns : List Value) (root : Path)
    (entry : Path × Entry Content) : Act Verdict := do
  if let .link _ := entry.2 then
    discard (Act.probe entry.1.text)
  verdict extensions patterns root entry.1

/-- The files found, and one more that is kept or excluded. -/
def Walked.note (found : Walked) (p : Path) : Verdict → Walked
  | .passed => found
  | .excluded => { found with excluded := found.excluded + 1 }
  | .kept => { found with files := found.files ++ [p.text] }

/-- Looking at an entry notes what becomes of it. -/
theorem visit_eq (extensions : List String) (patterns : List Value) (root : Path) (found : Walked)
    (entry : Path × Entry Content) :
    visit extensions patterns root found entry =
      found.note entry.1 <$> examine extensions patterns root entry := by
  obtain ⟨p, entry⟩ := entry
  -- What follows the question about a link is the verdict, noted.
  have hverdict : (if !hasExtension extensions p then pure found
      else do
        if !(← Act.isFile p.text) then
          return found
        else if ← isExcluded patterns root p then
          return { found with excluded := found.excluded + 1 }
        else
          return { found with files := found.files ++ [p.text] }) =
      found.note p <$> verdict extensions patterns root p := by
    unfold verdict
    split
    · rfl
    · rw [map_bind]
      congr 1
      funext isFile
      split
      · rfl
      · rw [map_bind]
        congr 1
        funext excluded
        cases excluded <;> rfl
  -- Only a link is asked for before the verdict.
  cases entry with
  | link target =>
    unfold examine
    rw [map_bind]
    exact congrArg (discard (Act.probe p.text) >>= ·) (funext fun _ => hverdict)
  | file content => exact hverdict
  | folder => exact hverdict

variable {host : Host} {extensions : List String} {patterns : List Value} {root : Path}

theorem isStateless_isExcluded (patterns : List Value) (root p : Path) :
    IsStateless (isExcluded patterns root p) := by
  unfold isExcluded
  dsimp only
  split
  · exact isStateless_pure _
  · exact isStateless_pure _
  · exact isStateless_throw _
  · exact isStateless_throw _

/-- A path is kept if it leads to a file with one of the extensions that no pattern excludes. -/
theorem verdict_eq_kept_iff {p : Path} :
    verdict extensions patterns root p host = .ok .kept host ↔
      hasExtension extensions p = true ∧ Act.hasNul p.text = false ∧
        host.tree.leadsToFile host.folder p.text = true ∧
        isExcluded patterns root p host = .ok false host := by
  unfold verdict
  cases hasExtension extensions p with
  | false => exact iff_of_false nofun (by simp)
  | true =>
    rw [← and_assoc (a := Act.hasNul _ = false), ← Act.isFile_eq_ok_true_iff]
    simp only [Bool.not_true, Bool.false_eq_true, ↓reduceIte, true_and]
    cases hfile : Act.isFile p.text host with
    | error e s =>
      rw [bind_of_error _ hfile]
      exact iff_of_false nofun fun h => nomatch h.1
    | ok b s =>
      -- The questions leave the host alone, so the next one is put to the same host.
      obtain ⟨rfl, -⟩ := Act.gives_isFile _ _ _ hfile
      rw [bind_of_ok _ hfile]
      cases b with
      | false => exact iff_of_false nofun fun h => nomatch h.1
      | true =>
        simp only [Bool.not_true, Bool.false_eq_true, ↓reduceIte, true_and]
        cases hexcluded : isExcluded patterns root p s with
        | error e s' =>
          rw [bind_of_error _ hexcluded]
          exact iff_of_false nofun nofun
        | ok excluded s' =>
          obtain rfl := gives_isExcluded patterns root p _ _ hexcluded
          rw [bind_of_ok _ hexcluded]
          cases excluded with
          | false => exact iff_of_true rfl rfl
          | true => exact iff_of_false nofun nofun

/-- Looking at a path changes nothing. -/
theorem gives_verdict (p : Path) :
    Gives (verdict extensions patterns root p) host fun _ s => s = host := by
  unfold verdict
  split
  · exact gives_pure rfl
  · -- The file is looked for only if its name has one of the endings.
    refine (Act.gives_isFile p.text).bind fun b s hfile => ?_
    split
    · exact gives_pure hfile.1
    · refine (gives_isExcluded patterns root p).bind fun excluded s' hsame => ?_
      split <;> exact gives_pure (hsame.trans hfile.1)

theorem gives_examine (e : Path × Entry Content) :
    Gives (examine extensions patterns root e) host fun v s => s = host ∧
      verdict extensions patterns root e.1 host = .ok v host := by
  have hverdict : Gives (verdict extensions patterns root e.1) host fun v s => s = host ∧
      verdict extensions patterns root e.1 host = .ok v host := by
    intro v s hrun
    obtain rfl := gives_verdict e.1 v s hrun
    exact ⟨rfl, hrun⟩
  unfold examine
  -- A link is asked for once more, and the answer is not used.
  split
  · refine Gives.bind ((Act.gives_probe e.1.text).mono fun _ _ h => h.1).discard ?_
    rintro _ _ rfl
    exact hverdict
  · exact hverdict

section Visits

variable {entries : List (Path × Entry Content)} {found : Walked}

theorem gives_visit_note {e : Path × Entry Content} :
    Gives (visit extensions patterns root found e) host fun found' s => s = host ∧
      ∃ v, examine extensions patterns root e host = .ok v host ∧ found' = found.note e.1 v := by
  intro found' s hvisit
  rw [visit_eq] at hvisit
  obtain ⟨v, hexamine, hfound⟩ := map_eq_ok_iff.1 hvisit
  obtain ⟨rfl, -⟩ := gives_examine e v s hexamine
  exact ⟨rfl, v, hexamine, hfound.symm⟩

/-- All entries have been looked at, and the files found are those that are kept. -/
theorem gives_visits :
    Gives (entries.foldlM (visit extensions patterns root) found) host fun found' s => s = host ∧
      (∀ e ∈ entries, ∃ v, examine extensions patterns root e host = .ok v host) ∧
      ∀ path, path ∈ found'.files ↔ path ∈ found.files ∨ ∃ e ∈ entries,
        verdict extensions patterns root e.1 host = .ok .kept host ∧ path = e.1.text := by
  induction entries generalizing found with
  | nil => exact gives_pure ⟨rfl, nofun, fun path => by simp⟩
  | cons e entries ih =>
    rw [List.foldlM_cons]
    refine gives_visit_note.bind ?_
    rintro _ host ⟨rfl, v, hexamine, rfl⟩
    refine ih.mono fun found' s hfound => ⟨hfound.1, ?_, fun path => ?_⟩
    · exact List.forall_mem_cons.2 ⟨⟨v, hexamine⟩, hfound.2.1⟩
    · rw [hfound.2.2, List.exists_mem_cons_iff, (gives_examine e v _ hexamine).2, ← or_assoc]
      -- Only the verdict `kept` adds a path.
      refine or_congr_left ?_
      cases v <;> simp [Walked.note]

/-- If all entries can be looked at, the walk through them succeeds. -/
theorem visits_of_examined
    (found : Walked)
    (h : ∀ e ∈ entries, ∃ v, examine extensions patterns root e host = .ok v host) :
    ∃ found', entries.foldlM (visit extensions patterns root) found host = .ok found' host := by
  -- A visit only puts the verdict into what has been found.
  have heach : ∀ e ∈ entries, ∀ found s, s = host → ∃ found' s',
      visit extensions patterns root found e s = .ok found' s' ∧ s' = host := by
    rintro e he found _ rfl
    obtain ⟨v, hexamine⟩ := h e he
    exact ⟨_, _, by rw [visit_eq, map_of_ok _ hexamine], rfl⟩
  obtain ⟨found', s, hrun, rfl⟩ := foldlM_total (I := fun _ s => s = host) (a := found) heach rfl
  exact ⟨found', hrun⟩

end Visits

/-- The paths walked through go on from the root to whatever stands below it. -/
theorem exists_mem_entriesBelow_iff {t : Tree Content} {here place : Place} {p : Path}
    (hlookup : t.lookup here root.text = .ok (place, .folder)) :
    (∃ e ∈ entriesBelow t here root, e.1 = p) ↔ ∃ names, names ≠ [] ∧
      p = { root with names := root.names ++ names } ∧ t.get? (place ++ names) ≠ none := by
  unfold entriesBelow
  rw [hlookup]
  constructor
  · rintro ⟨_, he, rfl⟩
    obtain ⟨⟨k, entry⟩, hk, rfl⟩ := List.mem_map.1 he
    obtain ⟨hk, hbelow⟩ := List.mem_filter.1 hk
    simp only [Bool.and_eq_true, List.isPrefixOf_iff_prefix, bne_iff_ne] at hbelow
    obtain ⟨⟨names, rfl⟩, hne⟩ := hbelow
    -- No names lead on to the folder itself, and that is left out.
    refine ⟨names, ?_, by rw [List.drop_left], Tree.get?_ne_none_of_mem hk⟩
    rintro rfl
    exact hne (List.append_nil _)
  · rintro ⟨names, hne, rfl, hget⟩
    obtain ⟨entry, hget⟩ := Option.ne_none_iff_exists'.1 hget
    refine ⟨_, List.mem_map.2 ⟨(place ++ names, entry), List.mem_filter.2 ⟨?_, ?_⟩, rfl⟩, ?_⟩
    · exact Tree.mem_entries_of_get? (by simp [hne]) hget
    · simpa using hne
    · rw [List.drop_left]

/-! ## Sorting -/

theorem mem_sorted {texts : List String} {text : String} : text ∈ sorted texts ↔ text ∈ texts := by
  rw [sorted, List.mem_mergeSort, List.mem_eraseDups]

/-- Sorted texts ascend strictly: each stands there once. -/
theorem pairwise_sorted (texts : List String) : (sorted texts).Pairwise (· < ·) := by
  have hle : (sorted texts).Pairwise (· ≤ ·) := by
    refine (List.pairwise_mergeSort (fun a b c => ?_) (fun a b => ?_) texts.eraseDups).imp ?_
    · simpa using String.le_trans
    · simpa using String.le_total a b
    · simp
  have hne : (sorted texts).Pairwise (· ≠ ·) :=
    (List.mergeSort_perm _ _).nodup_iff.2 (List.nodup_eraseDups _)
  -- Sorted and without repetition: each is strictly before the next.
  refine (hle.and hne).imp fun h => ?_
  rw [← String.not_le]
  exact fun hge => h.2 (String.le_antisymm h.1 hge)

/-- Texts are sorted alike if they are the same but for order and repetitions. -/
theorem sorted_eq_of_mem_iff {texts texts' : List String}
    (h : ∀ text, text ∈ texts' ↔ text ∈ texts) : sorted texts' = sorted texts := by
  have hperm : (sorted texts').Perm (sorted texts) := by
    refine (List.mergeSort_perm _ _).trans (.trans ?_ (List.mergeSort_perm _ _).symm)
    refine (List.perm_ext_iff_of_nodup (List.nodup_eraseDups _) (List.nodup_eraseDups _)).2 ?_
    simp [h]
  have hsorted (texts : List String) : (sorted texts).Pairwise fun a b => a ≤ b := by
    refine (List.pairwise_mergeSort (fun a b c => ?_) (fun a b => ?_) texts.eraseDups).imp ?_
    · simpa using String.le_trans
    · simpa using String.le_total a b
    · simp
  -- Two ascending lists with the same members are one list.
  exact hperm.eq_of_pairwise' (hsorted texts') (hsorted texts)

/-- A walk asks whether a file has one of the extensions, not in which order they are given. -/
theorem walk_eq_of_mem_iff {extensions' : List String}
    (h : ∀ e, e ∈ extensions' ↔ e ∈ extensions) (directory : String) :
    walk directory extensions' patterns = walk directory extensions patterns := by
  have hextension : hasExtension extensions' = hasExtension extensions := by
    funext p
    rw [Bool.eq_iff_iff, hasExtension, hasExtension, List.any_eq_true, List.any_eq_true]
    simp only [h]
  -- A visit asks for the extensions only whether one of them is the path's own.
  have hvisit (root : Path) : visit extensions' patterns root = visit extensions patterns root := by
    funext found entry
    unfold visit
    rw [hextension]
  unfold walk
  simp only [hvisit]

end Inventory

end ImportAtlas
