import ImportAtlas.Text.Line

/-!
# Import statements in a text

A statement starts on each line that begins with `import`. It is that line alone, or, when the
line opens a block, all lines up to the first one with a closing brace. A block that meets the
next statement first, or the end of the text, is not joined. So every `import` line starts
exactly one statement (`length_statementBlocks`).
-/

namespace ImportAtlas

/-- A line with its terminator. -/
abbrev Line := List Char

/-- Whether a statement starts on the line. -/
def startsStatement (l : Line) : Bool :=
  "import".toList.isPrefixOf l

/-- Whether the line ends in an opening brace, so that the statement goes on below it. -/
def opensBlock (l : Line) : Bool :=
  "\x7b\n".toList.isSuffixOf l || "\x7b\r\n".toList.isSuffixOf l

/-- Whether the line holds a closing brace. -/
def closesBlock (l : Line) : Bool :=
  l.contains '\x7d'

/-- The lines up to the first one that closes a block, if there is one before the next
statement. -/
def blockRest? : List Line → Option (List Line)
  | [] => none
  | l :: ls =>
    if startsStatement l then none
    else if closesBlock l then some [l]
    else (blockRest? ls).map (l :: ·)

/-- The lines of each statement. The rest of a block holds no line that starts a statement, so
looking for the next statement right below the first line finds the one below the block. -/
def statementBlocks (joinBlocks : Bool) : List Line → List (List Line)
  | [] => []
  | l :: ls =>
    if startsStatement l then
      -- A block that is not closed is no block, and its first line is a statement of its own.
      (if joinBlocks && opensBlock l then l :: (blockRest? ls).getD [] else [l])
        :: statementBlocks joinBlocks ls
    else
      statementBlocks joinBlocks ls

/-- The import statements of a text, in order. -/
def statements (joinBlocks : Bool) (text : List Char) : List (List Char) :=
  (statementBlocks joinBlocks (Text.lines text)).map List.flatten

/-- Each line that starts a statement gives one. -/
theorem length_statementBlocks (joinBlocks : Bool) (ls : List Line) :
    (statementBlocks joinBlocks ls).length = ls.countP startsStatement := by
  induction ls with
  | nil => rfl
  | cons l ls ih => by_cases h : startsStatement l <;> simp [statementBlocks, h, ih]

/-- The rest of a block starts no other statement. -/
theorem not_startsStatement_of_mem_blockRest? {ls rest : List Line} (h : blockRest? ls = some rest)
    {l : Line} (hl : l ∈ rest) : startsStatement l = false := by
  induction ls generalizing rest with
  | nil => simp [blockRest?] at h
  | cons m ls ih =>
    simp only [blockRest?] at h
    -- The rest ends before a line that starts a statement, and no line is taken in after one that
    -- closes the block.
    split at h
    · simp at h
    · rename_i hm
      split at h
      · obtain rfl : [m] = rest := by simpa using h
        obtain rfl : l = m := by simpa using hl
        simpa using hm
      · obtain ⟨r, hr, rfl⟩ := Option.map_eq_some_iff.1 h
        rcases List.mem_cons.1 hl with rfl | hl
        · simpa using hm
        · exact ih hr hl

end ImportAtlas
