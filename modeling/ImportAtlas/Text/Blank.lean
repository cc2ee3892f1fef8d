import ImportAtlas.Text.Range

/-!
# White space and words

The white-space class of scanned text, the words it separates, and trimming. A word is a
maximal run without white space, so no word is empty (`ne_nil_of_mem_words`).
-/

namespace ImportAtlas.Text

/-- The code points of white space. Zero-width marks (U+200B, U+FEFF) are not among them. -/
def blankRanges : List CodeRange :=
  [(0x09, 0x0D), (0x1C, 0x20), (0x85, 0x85), (0xA0, 0xA0), (0x1680, 0x1680), (0x2000, 0x200A),
   (0x2028, 0x2029), (0x202F, 0x202F), (0x205F, 0x205F), (0x3000, 0x3000)]

/-- Whether `c` separates words. -/
def isBlank (c : Char) : Bool :=
  inRanges blankRanges c

/-- The maximal runs of `s` that hold no white space, from left to right. -/
def words (s : List Char) : List (List Char) :=
  (s.splitOnP isBlank).filter fun w => !w.isEmpty

/-- `s` without its leading white space. -/
def trimStart (s : List Char) : List Char :=
  s.dropWhile isBlank

/-- `s` without its trailing white space. -/
def trimEnd (s : List Char) : List Char :=
  (s.reverse.dropWhile isBlank).reverse

/-- `s` without white space at either end. -/
def trim (s : List Char) : List Char :=
  trimEnd (trimStart s)

@[simp] theorem words_nil : words [] = [] := by
  simp [words]

/-- No word is empty. -/
theorem ne_nil_of_mem_words {s w : List Char} (h : w ∈ words s) : w ≠ [] := by
  have h' := (List.mem_filter.1 h).2
  intro hw
  simp [hw] at h'

/-- Every character of the core class of white space separates words. -/
theorem isBlank_of_isWhitespace {c : Char} (h : c.isWhitespace = true) : isBlank c = true := by
  simp only [Char.isWhitespace, Bool.or_eq_true, decide_eq_true_eq] at h
  rcases h with ((rfl | rfl) | rfl) | rfl <;> decide

end ImportAtlas.Text
