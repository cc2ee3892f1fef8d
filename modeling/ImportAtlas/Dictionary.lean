/-!
# Dictionaries in order

A dictionary is a list of keys with their values. Writing to a key that is present keeps its place
and changes its value; a new key goes to the end.
-/

namespace ImportAtlas

/-- Keys with their values, in the order in which the keys came first. -/
abbrev Dictionary (α β : Type) := List (α × β)

namespace Dictionary

variable {α β : Type}

/-- The keys, in order. -/
def keys (d : Dictionary α β) : List α :=
  d.map (·.1)

/-- The values, in the order of their keys. -/
def values (d : Dictionary α β) : List β :=
  d.map (·.2)

variable [BEq α]

/-- The value of a key. -/
def get? (d : Dictionary α β) (key : α) : Option β :=
  (d.find? fun entry => entry.1 == key).map (·.2)

/-- Whether a key is present. -/
def has (d : Dictionary α β) (key : α) : Bool :=
  d.any fun entry => entry.1 == key

/-- Writes a value to a key. -/
def put : Dictionary α β → α → β → Dictionary α β
  | [], key, value => [(key, value)]
  | entry :: d, key, value =>
    if entry.1 == key then (entry.1, value) :: d else entry :: put d key value

/-- Changes the value of a key, if the key is present. -/
def adjust (d : Dictionary α β) (key : α) (change : β → β) : Dictionary α β :=
  d.map fun entry => if entry.1 == key then (entry.1, change entry.2) else entry

/-- Writes entries one after the other. -/
def putAll (d : Dictionary α β) (entries : List (α × β)) : Dictionary α β :=
  entries.foldl (fun d entry => d.put entry.1 entry.2) d

/-- The dictionary of entries in which a key may come again; its last value counts. -/
def ofEntries (entries : List (α × β)) : Dictionary α β :=
  putAll [] entries

theorem get?_nil (key : α) : get? ([] : Dictionary α β) key = none :=
  rfl

theorem get?_cons (entry : α × β) (d : Dictionary α β) (key : α) :
    get? (entry :: d) key = if entry.1 == key then some entry.2 else d.get? key := by
  cases h : entry.1 == key <;> simp [get?, h]

/-- What is in a dictionary after writing was there before, or has been written. -/
theorem mem_put {d : Dictionary α β} {key : α} {value : β} {entry : α × β}
    (h : entry ∈ d.put key value) : entry ∈ d ∨ entry.2 = value := by
  induction d with
  | nil => exact .inr (by rw [List.mem_singleton.1 h])
  | cons first d ih =>
    unfold put at h
    -- An entry of the same key is overwritten where it stands, and any other is passed over.
    split at h
    · rcases List.mem_cons.1 h with rfl | h
      · exact .inr rfl
      · exact .inl (.tail _ h)
    · rcases List.mem_cons.1 h with rfl | h
      · exact .inl List.mem_cons_self
      · exact (ih h).imp_left (.tail _)

section Laws

variable [LawfulBEq α] {d : Dictionary α β} {key other : α} {value : β}

/-- A key is present if it is among the keys. -/
theorem has_iff : d.has key = true ↔ key ∈ d.keys := by
  simp [has, keys]

/-- What is written to a key twice is what was written last. -/
theorem put_put (d : Dictionary α β) (key : α) (first last : β) :
    (d.put key first).put key last = d.put key last := by
  induction d with
  | nil => simp [put]
  | cons entry d ih =>
    by_cases hkey : entry.1 == key
    · simp [put, hkey]
    · simp [put, hkey, ih]

/-- A value that is found stands in the dictionary. -/
theorem mem_of_get? (h : d.get? key = some value) : (key, value) ∈ d := by
  obtain ⟨entry, hfind, rfl⟩ := Option.map_eq_some_iff.1 h
  have hkey : entry.1 = key := by simpa using List.find?_some hfind
  exact hkey ▸ List.mem_of_find?_eq_some hfind

/-- No value is found just if the key is not there. -/
theorem get?_eq_none_iff : d.get? key = none ↔ key ∉ d.keys := by
  simp only [get?, keys, Option.map_eq_none_iff, List.find?_eq_none, beq_iff_eq, List.mem_map,
    not_exists, not_and]

/-- In the part of a dictionary with some of the keys, those are found as before. -/
theorem get?_filter (d : Dictionary α β) (keep : α → Bool) (key : α) :
    get? (d.filter fun entry => keep entry.1) key = if keep key then d.get? key else none := by
  induction d with
  | nil => simp [get?_nil]
  | cons entry d ih =>
    -- The filter sees keys only, so it keeps or drops all entries of the key at once.
    by_cases hkey : entry.1 = key
    · subst hkey
      cases hkeep : keep entry.1 with
      | true => simp [List.filter_cons_of_pos, hkeep, get?_cons]
      | false => simp [List.filter_cons_of_neg, hkeep, ih]
    · have hother : (entry.1 == key) = false := by simpa using hkey
      rw [List.filter_cons, get?_cons, hother, if_neg Bool.false_ne_true]
      split
      · rw [get?_cons, hother, if_neg Bool.false_ne_true, ih]
      · exact ih

/-- Where no key comes twice, an entry is found by its key. -/
theorem get?_of_mem (hd : d.keys.Nodup) (h : (key, value) ∈ d) : d.get? key = some value := by
  induction d with
  | nil => simp at h
  | cons entry d ih =>
    simp only [keys, List.map_cons, List.nodup_cons] at hd
    rcases List.mem_cons.1 h with rfl | h
    · simp [get?]
    · -- Distinct keys: the entry further back has none of those before it.
      have hne : entry.1 ≠ key := fun he => hd.1 (he ▸ List.mem_map.2 ⟨_, h, rfl⟩)
      simpa [get?, hne] using ih hd.2 h

/-- Where no key comes twice, to find a value is to have the entry. -/
theorem get?_eq_some_iff (hd : d.keys.Nodup) : d.get? key = some value ↔ (key, value) ∈ d :=
  ⟨mem_of_get?, get?_of_mem hd⟩

/-- Writing to a key gives it that value. -/
@[simp] theorem get?_put_self (d : Dictionary α β) (key : α) (value : β) :
    (d.put key value).get? key = some value := by
  induction d with
  | nil => simp [put, get?]
  | cons entry d ih =>
    by_cases h : entry.1 = key
    · simp [put, get?, h]
    · simpa [put, get?, h] using ih

/-- Writing to a key leaves the others alone. -/
theorem get?_put_of_ne (d : Dictionary α β) {key other : α} (value : β)
    (h : key ≠ other) : (d.put key value).get? other = d.get? other := by
  induction d with
  | nil => simp [put, get?, h]
  | cons entry d ih =>
    -- The value is put where the key is first, and the other key is looked up past it.
    by_cases hk : entry.1 = key
    · simp [put, get?, hk, h]
    · by_cases ho : entry.1 = other
      · have : other ≠ key := h.symm
        simp [put, get?, ho, this]
      · simpa [put, get?, hk, ho] using ih

/-- Of entries with distinct keys, written one after the other, each key has its value; the other
keys are left alone. -/
theorem get?_putAll {d entries : Dictionary α β} (hentries : entries.keys.Nodup) (key : α) :
    (d.putAll entries).get? key = (entries.get? key).or (d.get? key) := by
  induction entries generalizing d with
  | nil => rfl
  | cons entry entries ih =>
    simp only [keys, List.map_cons, List.nodup_cons] at hentries
    have hputAll : d.putAll (entry :: entries) = (d.put entry.1 entry.2).putAll entries := rfl
    rw [hputAll, ih hentries.2]
    -- The later entries have other keys, so the first one is not overwritten.
    by_cases hkey : entry.1 = key
    · have hnone : get? entries key = none := get?_eq_none_iff.2 (hkey ▸ hentries.1)
      rw [hnone, get?_cons, if_pos (beq_iff_eq.2 hkey), ← hkey, get?_put_self]
      rfl
    · rw [get?_cons, if_neg (mt beq_iff_eq.1 hkey), get?_put_of_ne _ _ hkey]

/-- A new key goes to the end. -/
theorem put_of_not_mem (h : key ∉ d.keys) : d.put key value = d ++ [(key, value)] := by
  induction d with
  | nil => rfl
  | cons entry d ih =>
    simp only [keys, List.map_cons, List.mem_cons, not_or] at h
    have hne : entry.1 ≠ key := Ne.symm h.1
    simp only [put, beq_eq_false_iff_ne.2 hne, Bool.false_eq_true, ↓reduceIte, List.cons_append]
    rw [ih h.2]

/-- Writing to a key that is present changes no key. -/
theorem keys_put_of_mem (h : key ∈ d.keys) : (d.put key value).keys = d.keys := by
  induction d with
  | nil => simp [keys] at h
  | cons entry d ih =>
    by_cases hk : entry.1 = key
    · simp [put, keys, hk]
    · have hd : key ∈ keys d := by
        rcases List.mem_cons.1 h with he | hd
        · exact absurd he.symm hk
        · exact hd
      simpa [put, keys, hk] using ih hd

/-- Writing keeps keys distinct. -/
theorem nodup_keys_put (hd : d.keys.Nodup) : (d.put key value).keys.Nodup := by
  by_cases h : key ∈ d.keys
  · -- A key that is there keeps its position, a new one comes last.
    rwa [keys_put_of_mem h]
  · have hkeys : (d.put key value).keys = d.keys ++ [key] := by
      rw [put_of_not_mem h]
      simp [keys]
    rw [hkeys, List.nodup_append]
    refine ⟨hd, by simp, ?_⟩
    rintro a ha _ hb rfl
    exact h (List.mem_singleton.1 hb ▸ ha)

/-- Writing to a key adds no other. -/
theorem mem_keys_put : other ∈ (d.put key value).keys ↔ other = key ∨ other ∈ d.keys := by
  by_cases h : key ∈ d.keys
  · rw [keys_put_of_mem h]
    exact ⟨Or.inr, fun ho => ho.elim (fun he => he ▸ h) id⟩
  · rw [put_of_not_mem h]
    simp [keys, or_comm]

end Laws

end Dictionary

end ImportAtlas
