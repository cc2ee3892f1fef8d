import ImportAtlas.Text.Blank

/-!
# Wrapping

A line that is too wide goes on in lines below it. It is broken between words only, each word with
the blanks behind it; a word that is too wide for a whole line stands alone and is cut off. Blanks
at the end of a line that stick out are dropped. How many columns a line takes up can be said.
Breaking a line loses nothing (`flatten_brokenLines`).
-/

namespace ImportAtlas

namespace Console

/-- The words of a line, each with the blanks behind it and the first one also with those before
it; a line of blanks alone has none. -/
def wordsOf (line : List Char) : List (List Char) :=
  let blanks := line.takeWhile Text.isBlank
  let solid := (line.dropWhile Text.isBlank).takeWhile fun c => !Text.isBlank c
  let behind := (line.dropWhile Text.isBlank).dropWhile fun c => !Text.isBlank c
  if h : solid = [] then
    []
  else
    -- The word itself is taken away, so less is left each time.
    have : (behind.dropWhile Text.isBlank).length < line.length := by
      have hsplit : solid.length + behind.length = (line.dropWhile Text.isBlank).length := by
        rw [← List.length_append]
        exact congrArg List.length List.takeWhile_append_dropWhile
      have hline := (List.dropWhile_sublist Text.isBlank (l := line)).length_le
      have hbehind := (List.dropWhile_sublist Text.isBlank (l := behind)).length_le
      have hsolid := List.length_pos_iff.2 h
      omega
    (blanks ++ solid ++ behind.takeWhile Text.isBlank) :: wordsOf (behind.dropWhile Text.isBlank)
termination_by line.length

/-- Puts words behind `line`, of which `filled` columns are taken, as long as they fit into `w`
columns, and the others into lines below it. The blanks behind a word need not fit. -/
def fill (columnsOf : List Char → Nat) (w : Nat) (line : List Char) (filled : Nat) :
    List (List Char) → List (List Char)
  | [] => [line]
  | word :: words =>
    -- The blanks behind a word do not count for the line it ends.
    if filled + columnsOf (Text.trimEnd word) ≤ w then
      fill columnsOf w (line ++ word) (filled + columnsOf word) words
    else
      line :: fill columnsOf w word (columnsOf word) words

/-- The lines that a line is broken into. -/
def brokenLines (columnsOf : List Char → Nat) (w : Nat) (line : List Char) : List (List Char) :=
  match wordsOf line with
  | [] => [line]
  | word :: words => fill columnsOf w word (columnsOf word) words

/-- A line without the blanks at its end, as far as they make it longer than `w` characters. -/
def dropExcess (w : Nat) (line : List Char) : List Char :=
  line.take (max w (Text.trimEnd line).length)

/-- A line that takes up at most `w` columns; if something is cut off, it ends in an ellipsis. -/
def truncated (columnsOf : List Char → Nat) (w : Nat) (line : List Char) : List Char :=
  if columnsOf line ≤ w then line
  else
    let fitting := (List.range line.length).filter fun n => columnsOf (line.take n) < w
    line.take (fitting.getLastD 0) ++ ['…']

/-- The lines that show a line in `w` columns. -/
def wrap (columnsOf : List Char → Nat) (w : Nat) (line : List Char) : List (List Char) :=
  (brokenLines columnsOf w line).map fun l => truncated columnsOf w (dropExcess w l)

/-! ## Nothing is lost -/

private theorem dropWhile_dropWhile (p : Char → Bool) (s : List Char) :
    (s.dropWhile p).dropWhile p = s.dropWhile p := by
  induction s with
  | nil => rfl
  | cons c s ih => by_cases h : p c <;> simp [h, ih]

/-- Only a line of blanks has no words. -/
theorem dropWhile_eq_nil_of_wordsOf {line : List Char} (h : wordsOf line = []) :
    line.dropWhile Text.isBlank = [] := by
  cases hs : line.dropWhile Text.isBlank with
  | nil => rfl
  | cons c rest =>
    have hc : Text.isBlank c = false := by
      have := List.head?_dropWhile_not Text.isBlank line
      rwa [hs] at this
    -- With something left there would be a first word.
    unfold wordsOf at h
    simp [hs, hc] at h

/-- The words of a line make up the line, unless there are none. -/
theorem flatten_wordsOf {line : List Char} (h : wordsOf line ≠ []) :
    (wordsOf line).flatten = line := by
  fun_induction wordsOf line with
  | case1 => simp at h
  | case2 line blanks solid behind hsolid hlt ih =>
    have hrest : (wordsOf (behind.dropWhile Text.isBlank)).flatten
        = behind.dropWhile Text.isBlank := by
      -- The line may end in blanks, which then belong to the last word.
      by_cases hw : wordsOf (behind.dropWhile Text.isBlank) = []
      · rw [hw, List.flatten_nil, ← dropWhile_dropWhile, dropWhile_eq_nil_of_wordsOf hw]
      · exact ih hw
    rw [List.flatten_cons, hrest, List.append_assoc, List.takeWhile_append_dropWhile,
      List.append_assoc, List.takeWhile_append_dropWhile, List.takeWhile_append_dropWhile]

theorem flatten_fill (columnsOf : List Char → Nat) (w : Nat) (line : List Char) (filled : Nat)
    (words : List (List Char)) :
    (fill columnsOf w line filled words).flatten = line ++ words.flatten := by
  induction words generalizing line filled with
  | nil => simp [fill]
  | cons word words ih =>
    unfold fill
    -- A word goes behind the line as it is, or starts the next one.
    split
    · rw [ih, List.flatten_cons, List.append_assoc]
    · rw [List.flatten_cons, ih, List.flatten_cons]

/-- Breaking a line loses nothing. -/
theorem flatten_brokenLines (columnsOf : List Char → Nat) (w : Nat) (line : List Char) :
    (brokenLines columnsOf w line).flatten = line := by
  unfold brokenLines
  split
  · simp
  · next word words h =>
    rw [flatten_fill, ← List.flatten_cons, ← h]
    exact flatten_wordsOf (h ▸ List.cons_ne_nil _ _)

end Console

end ImportAtlas
