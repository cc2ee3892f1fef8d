import ImportAtlas.Text.Blank
import ImportAtlas.Text.Line

/-!
# Lines of texts that are put together

A text that is written line by line, each with a terminator, is cut into these lines again. So is
any part of the lines of a text, and a text that is put behind one that ends in a line feed.

## Key results

- `Text.lines_append_ending`: a line with its terminator is the first line of a text
- `Text.lines_of_unbroken`: a text without terminators is a line
- `Text.lines_flatten_of_isInfix`: lines that follow each other in a text are the lines they make up
- `Text.lines_append_of_ends`: behind a line feed a new line starts
-/

namespace ImportAtlas.Text

variable {s l : List Char} {c : Char}

/-- What ends a line separates words. -/
theorem isBlank_of_isBreak (h : isBreak c = true) : isBlank c = true := by
  simp only [isBreak, Bool.or_eq_true, beq_iff_eq] at h
  rcases h with ((((((((rfl | rfl) | rfl) | rfl) | rfl) | rfl) | rfl) | rfl) | rfl) | rfl <;>
    decide

/-- The usual ways to end a line. -/
inductive Ending where
  /-- A line feed. -/
  | lineFeed
  /-- A carriage return and a line feed. -/
  | pair
  deriving DecidableEq, Repr

/-- The characters of an ending; the last line of a text may be without one. -/
def endingText : Option Ending → List Char
  | none => []
  | some .lineFeed => ['\n']
  | some .pair => ['\r', '\n']

/-- The ending of a line is made of breaks. -/
theorem isBreak_of_mem_endingText {e : Option Ending} (h : c ∈ endingText e) :
    isBreak c = true := by
  match e with
  | none => simp [endingText] at h
  | some .lineFeed =>
    rw [List.mem_singleton.1 h]
    decide
  | some .pair =>
    simp only [endingText, List.mem_cons, List.not_mem_nil, or_false] at h
    rcases h with rfl | rfl <;> decide

/-- A character that ends no line goes to the first line of what follows. -/
theorem lines_cons_of_not_isBreak (hc : isBreak c = false) (s : List Char) :
    lines (c :: s) = match lines s with
      | [] => [[c]]
      | l :: ls => (c :: l) :: ls := by
  -- A return would have to be seen together with what follows it.
  have hreturn : c ≠ '\r' := by
    rintro rfl
    exact absurd hc (by decide)
  rw [lines.eq_def]
  split
  · rename_i heq
    cases heq
  · rename_i heq
    exact absurd (List.cons.inj heq).1 hreturn
  · rename_i heq
    cases heq
    have hstay : ¬ isBreak c = true := by simp [hc]
    refine (if_neg hstay).trans ?_
    cases lines s <;> rfl

/-- A line with its terminator is the first line of a text. -/
theorem lines_append_ending (hl : ∀ c ∈ l, isBreak c = false) (e : Ending) (s : List Char) :
    lines (l ++ (endingText (some e) ++ s)) = (l ++ endingText (some e)) :: lines s := by
  induction l with
  | nil => cases e <;> rfl
  | cons c l ih =>
    simp only [List.mem_cons, forall_eq_or_imp] at hl
    rw [List.cons_append, lines_cons_of_not_isBreak hl.1, ih hl.2]
    rfl

/-- A text without terminators is a line. -/
theorem lines_of_unbroken (hne : l ≠ []) (hl : ∀ c ∈ l, isBreak c = false) : lines l = [l] := by
  induction l with
  | nil => exact absurd rfl hne
  | cons c l ih =>
    simp only [List.mem_cons, forall_eq_or_imp] at hl
    -- The first character joins the line that follows.
    rw [lines_cons_of_not_isBreak hl.1]
    cases l with
    | nil => rfl
    | cons d l => rw [ih (List.cons_ne_nil d l) hl.2]

/-- What stands at the beginning of a text without a terminator goes to its first line. -/
theorem lines_append_of_unbroken (hne : l ≠ []) (hl : ∀ c ∈ l, isBreak c = false) (s : List Char) :
    lines (l ++ s) = (l ++ (lines s).headD []) :: (lines s).tail := by
  induction l with
  | nil => exact absurd rfl hne
  | cons c l ih =>
    rw [List.forall_mem_cons] at hl
    rw [List.cons_append, lines_cons_of_not_isBreak hl.1]
    -- The first line of what follows is continued, if there is one.
    cases l with
    | nil =>
      rw [List.nil_append]
      cases lines s <;> rfl
    | cons d l =>
      rw [ih (List.cons_ne_nil d l) hl.2]
      rfl

/-- A character that breaks no line goes on with the first one. -/
theorem lines_cons_of_unbroken (hc : isBreak c = false) (s : List Char) :
    lines (c :: s) = (c :: (lines s).headD []) :: (lines s).tail :=
  lines_append_of_unbroken (List.cons_ne_nil c []) (List.forall_mem_singleton.2 hc) s

/-- A text without breaks begins the first line. -/
theorem exists_lines_append (hne : l ≠ []) (hl : ∀ c ∈ l, isBreak c = false) (s : List Char) :
    ∃ rest ls, lines (l ++ s) = (l ++ rest) :: ls :=
  ⟨_, _, lines_append_of_unbroken hne hl s⟩

/-! ## Lines that are taken out of a text -/

/-- A terminator at the beginning of a text is its first line, unless it is a carriage return that
belongs together with a line feed. -/
theorem lines_cons_of_isBreak (hc : isBreak c = true) (hpair : ∀ t, c = '\r' → s ≠ '\n' :: t) :
    lines (c :: s) = [c] :: lines s := by
  rw [lines.eq_def]
  split
  · -- The pair that counts as one break is ruled out, so the character ends its own line.
    rename_i heq
    cases heq
  · rename_i heq
    cases heq
    exact absurd rfl (hpair _ rfl)
  · rename_i heq
    cases heq
    exact if_pos hc

theorem lines_cons_lineFeed (s : List Char) : lines ('\n' :: s) = ['\n'] :: lines s :=
  lines_cons_of_isBreak rfl nofun

theorem lines_cons_pair (s : List Char) :
    lines ('\r' :: '\n' :: s) = ['\r', '\n'] :: lines s := rfl

/-- What is left of a text behind its first line has the lines that are left. -/
theorem lines_flatten_of_lines_eq_cons {ls : List (List Char)} (h : lines s = l :: ls) :
    lines ls.flatten = ls := by
  fun_induction lines s generalizing l with
  | case1 => cases h
  -- Splitting again what was joined gives the lines again.
  | case2 s ih | case3 c s _ hc ih =>
    cases h
    rw [flatten_lines]
  | case4 c s _ hc hs ih =>
    cases h
    rfl
  | case5 c s _ hc l' ls' hs ih =>
    cases h
    exact ih hs

/-- The last lines of a text are the lines of what they make up. -/
theorem lines_flatten_of_isSuffix {ls : List (List Char)} (h : ls <:+ lines s) :
    lines ls.flatten = ls := by
  obtain ⟨front, hfront⟩ := h
  -- By taking the lines in front away, one by one.
  induction front generalizing s with
  | nil =>
    obtain rfl : ls = lines s := hfront
    rw [flatten_lines]
  | cons l front ih =>
    exact ih (s := (front ++ ls).flatten) (lines_flatten_of_lines_eq_cons hfront.symm).symm

/-- So are the first ones. -/
theorem lines_flatten_of_isPrefix {ls : List (List Char)} (h : ls <+: lines s) :
    lines ls.flatten = ls := by
  fun_induction lines s generalizing ls with
  | case1 =>
    rw [List.prefix_nil.1 h]
    rfl
  | case2 s ih =>
    rcases List.prefix_cons_iff.1 h with rfl | ⟨t, rfl, ht⟩
    · rfl
    · exact congrArg (['\r', '\n'] :: ·) (ih ht)
  | case3 c s hpair hc ih =>
    rcases List.prefix_cons_iff.1 h with rfl | ⟨t, rfl, ht⟩
    · rfl
    · rw [List.flatten_cons, List.singleton_append, lines_cons_of_isBreak hc, ih ht]
      -- What the lines make up starts as the text does.
      obtain ⟨rest, hrest⟩ := ht
      intro u hreturn hfeed
      refine hpair (u ++ rest.flatten) hreturn ?_
      rw [← flatten_lines s, ← hrest, List.flatten_append, hfeed, List.cons_append]
  | case4 c s _ hc hs ih =>
    rcases List.prefix_cons_iff.1 h with rfl | ⟨t, rfl, ht⟩
    · rfl
    · obtain rfl : t = [] := List.prefix_nil.1 ht
      refine lines_of_unbroken (List.cons_ne_nil c []) (List.forall_mem_singleton.2 ?_)
      exact eq_false_of_ne_true hc
  -- A first line that goes on is put in front of a prefix of the rest.
  | case5 c s _ hc l ls' hs ih =>
    rcases List.prefix_cons_iff.1 h with rfl | ⟨t, rfl, ht⟩
    · rfl
    · have hmore : l :: t <+: lines s := by
        rw [hs]
        exact (List.prefix_cons_inj l).2 ht
      have hlines : lines (l ++ t.flatten) = l :: t := ih hmore
      rw [List.flatten_cons, List.cons_append,
        lines_cons_of_not_isBreak (eq_false_of_ne_true hc), hlines]

/-- Lines that follow each other in a text are the lines of what they make up. -/
theorem lines_flatten_of_isInfix {ls : List (List Char)} (h : ls <:+: lines s) :
    lines ls.flatten = ls := by
  obtain ⟨front, rest, hlines⟩ := h
  have hfront : lines (front ++ ls).flatten = front ++ ls :=
    lines_flatten_of_isPrefix ⟨rest, hlines⟩
  exact lines_flatten_of_isSuffix ⟨front, hfront.symm⟩

/-- Behind a line feed a new line starts. -/
theorem lines_append_of_ends (h : s.getLast? = some '\n') (t : List Char) :
    lines (s ++ t) = lines s ++ lines t := by
  fun_induction lines s with
  | case1 => cases h
  | case2 s ih =>
    cases s with
    | nil => rfl
    | cons d s => exact congrArg (['\r', '\n'] :: ·) (ih h)
  | case3 c s hpair hc ih =>
    rw [List.cons_append, lines_cons_of_isBreak hc]
    · cases s with
      | nil => rfl
      | cons d s => rw [ih h, List.cons_append]
    · -- A return at the end would not be the line feed that ends the text.
      intro u hreturn hfeed
      cases s with
      | nil =>
        subst hreturn
        cases h
      | cons d s => exact hpair s hreturn (by rw [(List.cons.inj hfeed).1])
  | case4 c s _ hc hs ih =>
    -- The last character is a line feed, so the text does not end within a line.
    obtain rfl : s = [] := by
      rw [← flatten_lines s, hs, List.flatten_nil]
    cases h
    exact absurd rfl hc
  | case5 c s _ hc l ls hs ih =>
    cases s with
    | nil => cases hs
    | cons d s =>
      rw [List.cons_append, lines_cons_of_not_isBreak (eq_false_of_ne_true hc), ih h, hs]
      rfl

end ImportAtlas.Text
