/-!
# Numbering

New ids are one more than the largest id in use, so that no id is given twice
(`nextId_not_mem`). Where ids are in use, the one before the next is one of them
(`nextId_sub_one_mem`).
-/

namespace ImportAtlas

/-- One more than the largest of the ids; 1 if there are none. -/
def nextId : List Int → Int
  | [] => 1
  | id :: ids => ids.foldl max id + 1

/-- A running maximum is no less than what it starts from and what it meets. -/
private theorem le_foldl_max (id : Int) (ids : List Int) :
    id ≤ ids.foldl max id ∧ ∀ i ∈ ids, i ≤ ids.foldl max id := by
  induction ids generalizing id with
  | nil => simp
  | cons j ids ih =>
    obtain ⟨hfirst, hrest⟩ := ih (max id j)
    simp only [List.foldl_cons, List.mem_cons, forall_eq_or_imp]
    exact ⟨by omega, by omega, hrest⟩

/-- The next id is past all ids in use. -/
theorem lt_nextId {ids : List Int} {id : Int} (h : id ∈ ids) : id < nextId ids := by
  cases ids with
  | nil => simp at h
  | cons j ids =>
    -- The next id is one more than the largest.
    obtain ⟨hfirst, hrest⟩ := le_foldl_max j ids
    simp only [nextId]
    rcases List.mem_cons.mp h with rfl | h
    · omega
    · have := hrest id h
      omega

/-- The next id is in use by nobody. -/
theorem nextId_not_mem (ids : List Int) : nextId ids ∉ ids :=
  fun h => absurd (lt_nextId h) (by omega)

/-- A running maximum is what it starts from, or something it meets. -/
private theorem foldl_max_mem (id : Int) (ids : List Int) : ids.foldl max id ∈ id :: ids := by
  induction ids generalizing id with
  | nil => simp
  | cons j ids ih =>
    rcases List.mem_cons.1 (ih (max id j)) with h | h
    · rw [List.foldl_cons, h]
      rcases Int.le_total id j with hle | hle
      · simp [Int.max_eq_right hle]
      · simp [Int.max_eq_left hle]
    · exact .tail _ (.tail _ h)

/-- The next id follows one that is in use, if any is. -/
theorem nextId_sub_one_mem {ids : List Int} (h : ids ≠ []) : nextId ids - 1 ∈ ids := by
  cases ids with
  | nil => exact absurd rfl h
  | cons id ids =>
    simp only [nextId, Int.add_sub_cancel]
    exact foldl_max_mem id ids

/-- The next id follows the largest one. -/
theorem nextId_eq {ids : List Int} {id : Int} (h : id ∈ ids) (hle : ∀ i ∈ ids, i ≤ id) :
    nextId ids = id + 1 := by
  have hlt := lt_nextId h
  have hmem := hle _ (nextId_sub_one_mem (List.ne_nil_of_mem h))
  omega

end ImportAtlas
