/-!
# Lines

Text is cut into lines that keep their terminators. Besides line feed, carriage return and the
pair of both, the vertical tab, the form feed, three of the information separators, next line
and the two separators of U+2028 end a line. Nothing is lost: `flatten_lines`.
-/

namespace ImportAtlas.Text

/-- Whether `c` ends a line. -/
def isBreak (c : Char) : Bool :=
  c == '\n' || c == '\r' || c == '\x0b' || c == '\x0c' || c == '\x1c' || c == '\x1d' ||
    c == '\x1e' || c == '\u0085' || c == '\u2028' || c == '\u2029'

/-- The lines of a text, each with its terminator; a carriage return and the line feed after it
are one terminator. The last line may have none. -/
def lines : List Char → List (List Char)
  | [] => []
  -- A return and the feed behind it are one break.
  | '\r' :: '\n' :: s => ['\r', '\n'] :: lines s
  | c :: s =>
    if isBreak c then
      [c] :: lines s
    else
      match lines s with
      | [] => [[c]]
      | l :: ls => (c :: l) :: ls

@[simp] theorem lines_nil : lines [] = [] := rfl

/-- The lines of a text make up the text. -/
@[simp] theorem flatten_lines (s : List Char) : (lines s).flatten = s := by
  fun_induction lines s with
  | case1 => rfl
  | case2 s ih => simp [ih]
  | case3 c s _ hc ih => simp [ih]
  | case4 c s _ hc hs ih => simpa [hs] using ih
  | case5 c s _ hc l ls hs ih => simpa [hs] using ih

/-- No line is empty. -/
theorem ne_nil_of_mem_lines {s l : List Char} (h : l ∈ lines s) : l ≠ [] := by
  -- Each line has the character that it starts with, or the break that ends it.
  fun_induction lines s with
  | case1 => simp at h
  | case2 s ih =>
    rcases List.mem_cons.1 h with rfl | h
    · simp
    · exact ih h
  | case3 c s _ hc ih =>
    rcases List.mem_cons.1 h with rfl | h
    · simp
    · exact ih h
  | case4 c s _ hc hs ih => simp_all
  | case5 c s _ hc l' ls hs ih =>
    rcases List.mem_cons.1 h with rfl | h
    · simp
    · exact ih (hs ▸ List.mem_cons_of_mem _ h)

end ImportAtlas.Text
