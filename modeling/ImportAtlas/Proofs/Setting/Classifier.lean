import ImportAtlas.Proofs.Act
import ImportAtlas.Setting.Classifier

/-!
# Settings whose names are texts

Settings may hold other values than texts where texts are meant. Where all of them are texts,
locators can be classified.

## Key results

- `Settings.classifier_ok`: libraries with texts as names make a classifier
- `Settings.kindOf_ok`: every locator has the kind that the classifier gives it
-/

namespace ImportAtlas

namespace Value

theorem mem_of_mem_distinctNames {vs : List Value} {v : Value} (h : v ∈ distinctNames vs) :
    v ∈ vs := by
  -- What is kept was kept before or is one of the values.
  suffices ∀ kept, v ∈ vs.foldl
      (fun kept v => if kept.any v.isSameName then kept else kept ++ [v]) kept →
      v ∈ kept ∨ v ∈ vs by
    exact (this [] h).resolve_left List.not_mem_nil
  clear h
  induction vs with
  | nil => exact fun _ => .inl
  | cons w vs ih =>
    intro kept h
    rcases ih _ h with hkept | hrest
    · dsimp only at hkept
      split at hkept
      · exact .inl hkept
      · rcases List.mem_append.1 hkept with hkept | hw
        · exact .inl hkept
        · exact .inr (List.mem_singleton.1 hw ▸ List.mem_cons_self)
    · exact .inr (.tail _ hrest)

theorem spell_of_isText {v : Value} (h : v.isText = true) (host : Host) :
    Act.spell v host = .ok v.shown host := by
  cases v <;> cases h
  rfl

theorem leadingTexts_of_isText {vs : List Value} (h : ∀ v ∈ vs, v.isText = true) :
    (leadingTexts vs).2 = Option.none := by
  induction vs with
  | nil => rfl
  | cons v vs ih =>
    simp only [List.mem_cons, forall_eq_or_imp] at h
    cases v <;> cases h.1
    exact ih h.2

end Value

namespace Settings

variable {s : Settings} {host : Host}

/-- Libraries with texts as names make a classifier. -/
theorem classifier_ok (hlibraries : ∀ v ∈ s.libraries, v.isText = true) (host : Host) :
    ∃ c, s.classifier host = .ok c host := by
  -- Texts are of one class, so they can be put in order.
  have hone : ¬ 1 < (s.libraries.map fun _ => OrderClass.text).eraseDups.length := by
    cases s.libraries with
    | nil => simp
    | cons v vs =>
      have hrest : (vs.map fun _ => OrderClass.text).filter (fun b => !b == .text) = [] := by
        simp only [List.filter_eq_nil_iff, List.mem_map]
        rintro b ⟨-, -, rfl⟩
        decide
      rw [List.map_cons, List.eraseDups_cons, hrest, List.eraseDups_nil]
      decide
  have hfolders : (Value.distinctNames s.libraries).mapM Act.spell host =
      .ok ((Value.distinctNames s.libraries).map Value.shown) host :=
    EStateM.mapM_of_ok fun v hv =>
      Value.spell_of_isText (hlibraries v (Value.mem_of_mem_distinctNames hv)) host
  unfold classifier
  rw [EStateM.bind_of_ok _ (EStateM.mapM_of_ok (f := fun _ => OrderClass.text) fun v hv => ?_)]
  · simp only [hone, ↓reduceIte]
    rw [EStateM.bind_of_ok _ hfolders]
    exact ⟨_, rfl⟩
  · have htext := hlibraries v hv
    cases v <;> cases htext
    rfl

/-- Where local starts are texts, every locator has the kind that the classifier gives it. -/
theorem kindOf_ok (hstarts : ∀ v ∈ s.localStarts, v.isText = true) (c : Classifier)
    (locator : String) : s.kindOf c locator host = .ok (c.classify locator) host := by
  unfold kindOf
  rw [Value.leadingTexts_of_isText hstarts]
  rfl

end Settings

end ImportAtlas
