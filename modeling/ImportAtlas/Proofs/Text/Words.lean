import ImportAtlas.Proofs.List
import ImportAtlas.Text.Blank

/-!
# Words of texts that are put together

White space cuts a text in two: its words are those before and those after it. So the last word of
a statement does not depend on what stands before it.

## Key results

- `Text.words_append_cons`: the words on both sides of white space
- `Text.words_eq_singleton`: a run without white space is one word
- `Text.words_cons_of_isBlank`, `Text.words_cons_of_not_startsWord`,
  `Text.words_cons_of_startsWord`: the words of a text, character by character
-/

namespace ImportAtlas.Text

variable {s t w : List Char} {c : Char}

theorem words_append_cons (hc : isBlank c = true) (s t : List Char) :
    words (s ++ c :: t) = words s ++ words t := by
  unfold words
  rw [List.splitOnP_append_cons s t hc, List.filter_append]

theorem words_eq_singleton (hne : w ≠ []) (hw : ∀ c ∈ w, isBlank c = false) : words w = [w] := by
  unfold words
  rw [List.splitOnP_eq_singleton hw, List.filter_cons_of_pos (by simpa using hne), List.filter_nil]

/-- White space alone holds no words. -/
theorem words_eq_nil (hs : ∀ c ∈ s, isBlank c = true) : words s = [] := by
  induction s with
  | nil => exact words_nil
  | cons c s ih =>
    simp only [List.mem_cons, forall_eq_or_imp] at hs
    have hcut := words_append_cons hs.1 [] s
    rwa [List.nil_append, words_nil, List.nil_append, ih hs.2] at hcut

/-- White space at the end adds no words. -/
theorem words_append_blanks (s : List Char) (ht : ∀ c ∈ t, isBlank c = true) :
    words (s ++ t) = words s := by
  cases t with
  | nil => rw [List.append_nil]
  | cons c t =>
    simp only [List.mem_cons, forall_eq_or_imp] at ht
    rw [words_append_cons ht.1, words_eq_nil ht.2, List.append_nil]

/-- A text that starts with something other than white space has a word. -/
theorem words_cons_ne_nil (hc : isBlank c = false) (s : List Char) : words (c :: s) ≠ [] := by
  -- The first piece is not empty, so it is kept.
  obtain ⟨piece, pieces, hsplit⟩ :=
    List.exists_cons_of_ne_nil (List.splitOnP_ne_nil isBlank s)
  unfold words
  rw [List.splitOnP_cons_eq_if_modifyHead, hc, if_neg Bool.false_ne_true, hsplit,
    List.modifyHead_cons, List.filter_cons_of_pos (by simp)]
  exact List.cons_ne_nil _ _

/-- White space at the beginning adds no words. -/
theorem words_cons_of_isBlank (hc : isBlank c = true) (s : List Char) :
    words (c :: s) = words s := by
  have h := words_append_cons hc [] s
  rwa [List.nil_append, words_nil, List.nil_append] at h

/-- Whether a text starts with a word. -/
def startsWord (s : List Char) : Bool :=
  s.head?.any fun c => !isBlank c

/-- A character before white space is a word. -/
theorem words_cons_of_not_startsWord (hc : isBlank c = false) (hs : startsWord s = false) :
    words (c :: s) = [c] :: words s := by
  have hword : words [c] = [[c]] :=
    words_eq_singleton (List.cons_ne_nil c []) (List.forall_mem_singleton.2 hc)
  cases s with
  | nil => rw [hword, words_nil]
  | cons d s =>
    have hd : isBlank d = true := by simpa [startsWord] using hs
    -- A blank ends the word, and a blank in front of words adds none.
    have h := words_append_cons hd [c] s
    rw [hword] at h
    rw [words_cons_of_isBlank hd]
    exact h

/-- A character before a word is a part of it. -/
theorem words_cons_of_startsWord (hc : isBlank c = false) (hs : startsWord s = true) :
    ∃ w ws, w ≠ [] ∧ words s = w :: ws ∧ words (c :: s) = (c :: w) :: ws := by
  cases s with
  | nil => cases hs
  | cons d s =>
    have hd : isBlank d = false := by simpa [startsWord] using hs
    obtain ⟨piece, pieces, hsplit⟩ :=
      List.exists_cons_of_ne_nil (List.splitOnP_ne_nil isBlank s)
    -- The first piece of the rest is not empty, so the character joins it.
    have hsplit' : (d :: s).splitOnP isBlank = (d :: piece) :: pieces := by
      rw [List.splitOnP_cons_eq_if_modifyHead, hd, if_neg Bool.false_ne_true, hsplit,
        List.modifyHead_cons]
    refine ⟨d :: piece, pieces.filter fun w => !w.isEmpty, List.cons_ne_nil d piece, ?_, ?_⟩
    · rw [words, hsplit', List.filter_cons_of_pos (by simp)]
    · rw [words, List.splitOnP_cons_eq_if_modifyHead, hc, if_neg Bool.false_ne_true, hsplit',
        List.modifyHead_cons, List.filter_cons_of_pos (by simp)]

/-- No word holds white space. -/
theorem isBlank_of_mem_words (h : w ∈ words s) : ∀ c ∈ w, isBlank c = false :=
  List.eq_false_of_mem_splitOnP (List.mem_filter.1 h).1

end ImportAtlas.Text
