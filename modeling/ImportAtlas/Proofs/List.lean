import Mathlib.Data.List.Nodup

/-!
# Lists whose keys differ, and lists that are cut

Files and imports are told apart by keys: by their ids, by their paths, or by both ends. Here are
the facts about lists that are sorted out by such keys, and about the pieces that a list is cut
into.

## Key results

- `List.not_mem_map_of_nodup_append`: a key that comes later has not come before
- `List.countP_flatMap_filter`: counting key by key counts everything once
- `List.flatMap_filter_perm`: sorting out key by key takes everything once
- `List.eq_false_of_mem_splitOnP`: no piece holds what the list is cut at
- `List.mem_intercalate_iff`: what is in lists that are put together
-/

namespace List

variable {α β : Type}

/-- Where all keys differ, that of an element is not among those before it. -/
theorem not_mem_map_of_nodup_append {key : α → β} {before after : List α} {a : α}
    (h : ((before ++ a :: after).map key).Nodup) : key a ∉ before.map key := by
  rw [map_append, map_cons] at h
  exact fun hmem => disjoint_of_nodup_append h hmem mem_cons_self

theorem countP_add_countP {p q : α → Bool} (hpq : ∀ x, p x = true → q x = false)
    (xs : List α) : xs.countP p + xs.countP q = xs.countP fun x => p x || q x := by
  induction xs with
  | nil => rfl
  | cons x xs ih =>
    simp only [countP_cons, ← ih]
    -- No element counts on both sides.
    cases hp : p x
    · simp
      omega
    · simp [hpq x hp]
      omega

/-- Sorting out what has one of several keys, and counting some of it, counts each once. -/
theorem countP_flatMap_filter [BEq β] [LawfulBEq β] (key : α → β) {values : List β}
    (hvalues : values.Nodup) (p : α → Bool) (xs : List α) :
    (values.flatMap fun v => xs.filter fun x => key x == v).countP p =
      xs.countP fun x => values.contains (key x) && p x := by
  induction values with
  | nil => simp
  | cons v values ih =>
    obtain ⟨hv, hvalues⟩ := nodup_cons.1 hvalues
    rw [flatMap_cons, countP_append, countP_filter, ih hvalues, countP_add_countP]
    · congr 1
      funext x
      rw [contains_cons, Bool.and_comm, Bool.and_or_distrib_right]
    · -- The values differ, so nothing is counted for two of them.
      intro x hx
      have hkey : key x = v := by simp at hx; exact hx.2
      simp [hkey, hv]

/-- Sorting out what has one of several keys takes all that has them, each as often as it is
there. -/
theorem flatMap_filter_perm [BEq β] [LawfulBEq β] (key : α → β) {values : List β}
    (hvalues : values.Nodup) {xs : List α} (hxs : ∀ x ∈ xs, key x ∈ values) :
    (values.flatMap fun v => xs.filter fun x => key x == v).Perm xs := by
  classical
  refine perm_iff_count.2 fun a => ?_
  rw [count, countP_flatMap_filter key hvalues]
  refine countP_congr fun x hx => ?_
  simp [hxs x hx]

/-- A list from which repetitions are erased holds nothing twice. -/
theorem nodup_eraseDups [BEq α] [LawfulBEq α] (xs : List α) : xs.eraseDups.Nodup := by
  -- What follows the first element is shorter, and does not hold it any more.
  induction hlen : xs.length using Nat.strongRecOn generalizing xs with
  | ind n ih =>
    cases xs with
    | nil => exact nodup_nil
    | cons x xs =>
      have hle := length_filter_le (fun y => !y == x) xs
      rw [length_cons] at hlen
      rw [eraseDups_cons, nodup_cons]
      refine ⟨fun hmem => ?_, ih _ (by omega) _ rfl⟩
      have hkept := (mem_filter.1 (mem_eraseDups.1 hmem)).2
      simp at hkept

/-- What alone passes a test is found by it, wherever it stands. -/
theorem find?_eq_some_of_unique {p : α → Bool} {xs : List α} {a : α} (ha : a ∈ xs)
    (hp : p a = true) (hunique : ∀ b ∈ xs, p b = true → b = a) : xs.find? p = some a := by
  cases hfind : xs.find? p with
  | none => exact absurd hp (find?_eq_none.1 hfind a ha)
  | some b => rw [hunique b (mem_of_find?_eq_some hfind) (find?_some hfind)]

/-- No piece of a list that is cut holds what it is cut at. -/
theorem eq_false_of_mem_splitOnP {p : α → Bool} {xs piece : List α} (h : piece ∈ xs.splitOnP p) :
    ∀ x ∈ piece, p x = false := by
  induction xs generalizing piece with
  | nil =>
    rw [splitOnP_nil, mem_singleton] at h
    simp [h]
  | cons y xs ih =>
    rw [splitOnP_cons_eq_if_modifyHead] at h
    split at h
    · -- The list is cut here, so `y` is in none of the pieces.
      rcases mem_cons.1 h with rfl | h
      · simp
      · exact ih h
    · rename_i hy
      obtain ⟨first, pieces, hsplit⟩ := exists_cons_of_ne_nil (splitOnP_ne_nil p xs)
      rw [hsplit, modifyHead_cons] at h
      rcases mem_cons.1 h with rfl | h
      · simp only [mem_cons, forall_eq_or_imp]
        exact ⟨by simpa using hy, ih (hsplit ▸ mem_cons_self)⟩
      · exact ih (hsplit ▸ mem_cons_of_mem _ h)

/-- What stands in a list of parts with a separator between them stands in one of the parts. -/
theorem mem_intercalate_iff {c : α} {sep : List α} {xs : List (List α)} (h : c ∉ sep) :
    c ∈ sep.intercalate xs ↔ ∃ x ∈ xs, c ∈ x := by
  induction xs with
  | nil => simp [intercalate]
  | cons x xs ih =>
    cases xs with
    | nil => simp [intercalate]
    | cons y xs =>
      -- It can only come from one of the lists, as it is not in what separates them.
      rw [intercalate_cons_cons, mem_append, mem_append, ih,
        exists_mem_cons_iff]
      simp [h]

/-- Parts that come in two groups are put together group by group. -/
theorem intercalate_append {sep : List α} {xs ys : List (List α)} (hxs : xs ≠ []) (hys : ys ≠ []) :
    sep.intercalate (xs ++ ys) = sep.intercalate xs ++ sep ++ sep.intercalate ys := by
  induction xs with
  | nil => exact absurd rfl hxs
  | cons x xs ih =>
    -- The last of the front is followed by a separator as all the others are.
    cases xs with
    | nil =>
      obtain ⟨y, ys, rfl⟩ := exists_cons_of_ne_nil hys
      rw [cons_append, nil_append, intercalate_cons_cons, intercalate_singleton]
    | cons y xs =>
      rw [cons_append, cons_append, intercalate_cons_cons, ← cons_append, ih (cons_ne_nil y xs),
        intercalate_cons_cons]
      simp only [append_assoc]

/-- What stands on one side of an element that it does not have is found on that side. -/
theorem infix_append_cons_iff {l xs ys : List α} {c : α} (hl : l ≠ []) (hc : c ∉ l) :
    l <:+: xs ++ c :: ys ↔ l <:+: xs ∨ l <:+: ys := by
  have hstart {l' : List α} (hl' : l' ≠ []) (hc' : c ∉ l') : ¬ l' <+: c :: ys := by
    rintro ⟨more, hmore⟩
    obtain ⟨d, rest, rfl⟩ := exists_cons_of_ne_nil hl'
    obtain rfl : d = c := (cons.inj hmore).1
    exact hc' mem_cons_self
  -- A list without `c` cannot reach over it.
  rw [infix_append_iff_ne_nil, infix_cons_iff, or_iff_right (hstart hl hc)]
  refine or_congr_right (or_iff_left ?_)
  rintro ⟨l₁, l₂, -, hne, rfl, -, hback⟩
  exact hstart hne (fun hmem => hc (mem_append_right l₁ hmem)) hback

end List
