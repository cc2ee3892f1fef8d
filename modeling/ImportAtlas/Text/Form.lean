/-!
# Texts that cannot all be written

A file name need not be UTF-8. A byte of it that fits no character comes as a half of a surrogate
pair that stands alone, which is no character either, and which UTF-8 has no bytes for. So there are
texts of characters, as most of this library has them, and texts that may hold such halves and then
cannot be written. What is done with a text before it is written goes for both.
-/

namespace ImportAtlas

namespace Text

/-- A point of a text: a character, or a half of a surrogate pair that stands alone. -/
inductive Point where
  | char (c : Char)
  /-- The halves are counted from U+D800. -/
  | half (n : Fin 2048)
  deriving DecidableEq, Repr

/-- A text that may hold halves of surrogate pairs. -/
structure Raw where
  points : List Point
  deriving DecidableEq, Repr

namespace Raw

/-- The characters of points, unless a half is among them. -/
def chars? : List Point → Option (List Char)
  | [] => some []
  | .char c :: points => (chars? points).map (c :: ·)
  | .half _ :: _ => none

/-- The text of characters. -/
def ofText (s : String) : Raw :=
  ⟨s.toList.map .char⟩

theorem chars?_eq_some_iff {points : List Point} {s : List Char} :
    chars? points = some s ↔ points = s.map .char := by
  induction points generalizing s with
  | nil => cases s <;> simp [chars?]
  | cons point points ih =>
    -- Half a pair is no character, so it keeps the whole from being made of characters.
    cases point with
    | half n => cases s <;> simp [chars?]
    | char c =>
      rw [chars?, Option.map_eq_some_iff]
      constructor
      · rintro ⟨cs, hcs, rfl⟩
        rw [ih.1 hcs, List.map_cons]
      · intro h
        cases s with
        | nil => cases h
        | cons c' s =>
          obtain ⟨rfl, hrest⟩ := by simpa using h
          exact ⟨s, ih.2 hrest, rfl⟩

end Raw

/-- A type of texts. Some of its texts can be written, and those are the texts of characters. -/
class Form (τ : Type) where
  /-- The text in characters, if it can be written. -/
  written? : τ → Option String
  /-- The text of characters. -/
  ofText : String → τ
  written?_eq_some_iff {text : τ} {s : String} : written? text = some s ↔ text = ofText s

/-- Texts of characters can all be written. -/
instance : Form String where
  written? := some
  ofText := id
  written?_eq_some_iff := Option.some_inj

/-- A text that holds a half of a surrogate pair cannot be written. -/
instance : Form Raw where
  written? text := (Raw.chars? text.points).map String.ofList
  ofText := Raw.ofText
  written?_eq_some_iff := by
    intro text s
    rw [Option.map_eq_some_iff]
    constructor
    · rintro ⟨cs, hcs, rfl⟩
      rw [Raw.ofText, String.toList_ofList, ← Raw.chars?_eq_some_iff.1 hcs]
    · rintro rfl
      exact ⟨s.toList, Raw.chars?_eq_some_iff.2 rfl, String.ofList_toList⟩

namespace Form

variable {τ : Type} [Form τ]

/-- A text of characters can be written, as these characters. -/
theorem written?_ofText (s : String) : written? (ofText s : τ) = some s :=
  written?_eq_some_iff.2 rfl

/-- What can be written is a text of characters. -/
theorem exists_ofText {text : τ} (h : written? text ≠ none) : ∃ s, text = ofText s :=
  (Option.ne_none_iff_exists'.1 h).imp fun _ => written?_eq_some_iff.1

/-- Different characters make different texts. -/
theorem ofText_injective {s s' : String} (h : (ofText s : τ) = ofText s') : s = s' := by
  have hs := written?_ofText (τ := τ) s
  rwa [h, written?_ofText, Option.some_inj, eq_comm] at hs

end Form

end Text

end ImportAtlas
