import ImportAtlas.Import.Locator
import ImportAtlas.Proofs.Text.Lines
import ImportAtlas.Proofs.Text.Words

/-!
# Layouts of import statements

Statements are written on one line, or as a block over several lines; between them stand lines that
start no statement. A text that is put together from such parts gives back the locators that were
written into it, one for each statement.

## Key results

- `SourcePart.statements_text_append`: a part is cut off the text that it starts
- `SourcePart.locator_text`: the locator of a statement is read back
- `map_locator_statements`: the locators of a whole text, and what a locator is
-/

namespace ImportAtlas

/-- The word that starts a statement. -/
def statementWord : List Char := "import".toList

/-- A statement starts with its word. -/
theorem startsStatement_iff {l : Line} : startsStatement l = true ↔ statementWord <+: l :=
  List.isPrefixOf_iff_prefix

theorem statementWord_eq : statementWord = 'i' :: ['m', 'p', 'o', 'r', 't'] := rfl

/-- What can be read as a locator: some text without white space and without quotes. -/
def IsLocator (l : List Char) : Prop :=
  l ≠ [] ∧ ∀ c ∈ l, Text.isBlank c = false ∧ isQuote c = false

/-! ## Parts of a text -/

/-- The content of a line. -/
structure BareLine where
  text : List Char
  unbroken : ∀ c ∈ text, Text.isBreak c = false

/-- A locator between quotes, with a semicolon behind it or without one. -/
structure QuotedLocator where
  locator : List Char
  isLocator : IsLocator locator
  quote : Char
  isQuote_quote : isQuote quote = true
  hasSemicolon : Bool

/-- A quoted locator as it is written. -/
def QuotedLocator.text (q : QuotedLocator) : List Char :=
  q.quote :: (q.locator ++ q.quote :: if q.hasSemicolon then [';'] else [])

/-- A statement on one line: `import`, some clause that ends in white space or nothing, and a quoted
locator. -/
structure SingleLayout where
  clause : List Char
  unbroken : ∀ c ∈ clause, Text.isBreak c = false
  spaced : clause = [] ∨ ∃ front blank, clause = front ++ [blank] ∧ Text.isBlank blank = true
  quoted : QuotedLocator

/-- A statement on one line, without the ending of the line. -/
def SingleLayout.text (l : SingleLayout) : List Char :=
  statementWord ++ ' ' :: (l.clause ++ l.quoted.text)

/-- A statement over several lines: one that starts with `import` and ends in an opening brace,
lines that neither close the block nor start a statement, and a line that closes the block, where
the quoted locator stands behind white space. -/
structure BlockLayout where
  opener : BareLine
  starts : startsStatement opener.text = true
  opens : opener.text.getLast? = some '\x7b'
  openerEnding : Text.Ending
  /-- The lines between the opening and the closing one. -/
  inner : List (BareLine × Text.Ending)
  inner_plain : ∀ l ∈ inner, startsStatement l.1.text = false ∧ closesBlock l.1.text = false
  /-- What the closing line has in front of the locator. -/
  front : List Char
  front_unbroken : ∀ c ∈ front, Text.isBreak c = false
  blank : Char
  isBlank_blank : Text.isBlank blank = true
  isBreak_blank : Text.isBreak blank = false
  quoted : QuotedLocator
  closer_plain : startsStatement (front ++ blank :: quoted.text) = false
  closes : closesBlock (front ++ blank :: quoted.text) = true

/-- The lines of a block before the last one, as they are written. -/
def BlockLayout.frontLines (b : BlockLayout) : List Line :=
  (b.opener.text ++ Text.endingText (some b.openerEnding)) ::
    b.inner.map fun l => l.1.text ++ Text.endingText (some l.2)

/-- The last line of a block, without its ending. -/
def BlockLayout.lastLine (b : BlockLayout) : List Char :=
  b.front ++ b.blank :: b.quoted.text

/-- A part of a source text. -/
inductive SourcePart where
  /-- A line that starts no statement. -/
  | other (line : BareLine) (plain : startsStatement line.text = false)
  | single (layout : SingleLayout)
  | block (layout : BlockLayout)

namespace SourcePart

/-- The lines of a part before the last one, as they are written. -/
def frontLines : SourcePart → List Line
  | other _ _ | single _ => []
  | block b => b.frontLines

/-- The last line of a part, without its ending. -/
def lastLine : SourcePart → List Char
  | other line _ => line.text
  | single l => l.text
  | block b => b.lastLine

/-- A part as it is written, with the ending of its last line. -/
def text (p : SourcePart) (ending : Option Text.Ending) : List Char :=
  p.frontLines.flatten ++ (p.lastLine ++ Text.endingText ending)

/-- The locator that is written into a part, if it is a statement. -/
def locator? : SourcePart → Option (List Char)
  | other _ _ => none
  | single l => some l.quoted.locator
  | block b => some b.quoted.locator

end SourcePart

/-- A text of parts whose lines all have endings, and of a last part without one if there is such a
part. -/
def sourceText (parts : List (SourcePart × Text.Ending)) (last : Option SourcePart) : List Char :=
  (parts.flatMap fun p => p.1.text (some p.2)) ++ (last.elim [] (·.text none))

/-! ## Lines with their endings -/

/-- That word breaks no line. -/
theorem isBreak_of_mem_statementWord : ∀ c ∈ statementWord, Text.isBreak c = false := by
  have hword : statementWord.all (fun c => !Text.isBreak c) = true := by
    rw [statementWord_eq]
    decide
  intro c hc
  simpa using List.all_eq_true.1 hword c hc

variable {l s : List Char} {e : Option Text.Ending}

/-- An ending cannot complete the word that starts a statement. -/
theorem startsStatement_append_ending (l : List Char) (e : Option Text.Ending) :
    startsStatement (l ++ Text.endingText e) = startsStatement l := by
  rw [Bool.eq_iff_iff, startsStatement_iff, startsStatement_iff]
  refine ⟨fun h => ?_, fun h => h.trans (List.prefix_append _ _)⟩
  rcases List.prefix_or_prefix_of_prefix h (List.prefix_append l _) with h' | ⟨rest, hrest⟩
  · exact h'
  · -- What is missing of the word would be a part of the ending.
    rw [← hrest, List.prefix_append_right_inj] at h
    cases rest with
    | nil =>
      have hsame : l = statementWord := by simpa using hrest
      exact hsame ▸ List.prefix_rfl
    | cons c rest =>
      have hbreak := Text.isBreak_of_mem_endingText (h.subset List.mem_cons_self)
      have hword : c ∈ statementWord := hrest ▸ List.mem_append_right _ List.mem_cons_self
      rw [isBreak_of_mem_statementWord c hword] at hbreak
      cases hbreak

/-- How a line ends is no part of what closes a block. -/
theorem closesBlock_append_ending (l : List Char) (e : Option Text.Ending) :
    closesBlock (l ++ Text.endingText e) = closesBlock l := by
  have hending : (Text.endingText e).contains '\x7d' = false := by
    match e with
    | none | some .lineFeed | some .pair => rfl
  rw [closesBlock, closesBlock, List.contains_eq_any_beq, List.any_append,
    ← List.contains_eq_any_beq, ← List.contains_eq_any_beq, hending, Bool.or_false]

/-- A brace at the end of a line opens a block, whatever the ending. -/
theorem opensBlock_append_ending (h : l.getLast? = some '\x7b') (e : Text.Ending) :
    opensBlock (l ++ Text.endingText (some e)) = true := by
  obtain ⟨front, rfl⟩ := List.getLast?_eq_some_iff.1 h
  rw [opensBlock, Bool.or_eq_true, List.isSuffixOf_iff_suffix, List.isSuffixOf_iff_suffix]
  cases e with
  | lineFeed => exact .inl ⟨front, by simp [Text.endingText]⟩
  | pair => exact .inr ⟨front, by simp [Text.endingText]⟩

/-- A line that ends in a quote or a semicolon opens no block. -/
theorem opensBlock_eq_false {c : Char} (hc : isQuote c = true ∨ c = ';') (front : List Char)
    (e : Option Text.Ending) : opensBlock (front ++ [c] ++ Text.endingText e) = false := by
  -- An opening brace would have to be the last character before the ending, where a quote or a
  -- semicolon stands.
  have hne : c ≠ '\x7b' ∧ c ≠ '\r' ∧ c ≠ '\n' := by
    simp only [isQuote, Bool.or_eq_true, beq_iff_eq] at hc
    rcases hc with (rfl | rfl) | rfl <;> decide
  rw [opensBlock, Bool.or_eq_false_iff, Bool.eq_false_iff, Bool.eq_false_iff, ne_eq, ne_eq,
    List.isSuffixOf_iff_suffix, List.isSuffixOf_iff_suffix, ← List.reverse_prefix,
    ← List.reverse_prefix]
  match e with
  | none => simp [Text.endingText, hne.2.2.symm]
  | some .lineFeed => simp [Text.endingText, hne.1.symm, hne.2.1.symm]
  | some .pair => simp [Text.endingText, hne.1.symm]

/-! ## Quoted locators -/

namespace QuotedLocator

variable {q : QuotedLocator}

/-- A quoted locator is not empty, since its quotes are there. -/
theorem text_ne_nil (q : QuotedLocator) : q.text ≠ [] :=
  List.cons_ne_nil _ _

/-- The last character of a quoted locator is a quote or a semicolon. -/
theorem exists_text_eq (q : QuotedLocator) :
    ∃ front c, q.text = front ++ [c] ∧ (isQuote c = true ∨ c = ';') := by
  -- What comes last is the semicolon, or the closing quote without one.
  cases hsemicolon : q.hasSemicolon with
  | true =>
    refine ⟨q.quote :: (q.locator ++ [q.quote]), ';', ?_, .inr rfl⟩
    simp [text, hsemicolon]
  | false =>
    refine ⟨q.quote :: q.locator, q.quote, ?_, .inl q.isQuote_quote⟩
    simp [text, hsemicolon]

/-- It has no space in it. -/
theorem isBlank_of_mem_text : ∀ c ∈ q.text, Text.isBlank c = false := by
  have hquote : Text.isBlank q.quote = false := by
    have h := q.isQuote_quote
    simp only [isQuote, Bool.or_eq_true, beq_iff_eq] at h
    rcases h with h | h <;> rw [h] <;> decide
  have hsemicolon : ∀ c ∈ (if q.hasSemicolon then [';'] else []), Text.isBlank c = false := by
    intro c hc
    split at hc
    · rw [List.mem_singleton.1 hc]
      decide
    · cases hc
  intro c hc
  simp only [text, List.mem_cons, List.mem_append] at hc
  -- The text is a quote, the locator, a quote, and a semicolon perhaps.
  rcases hc with rfl | hc | rfl | hc
  · exact hquote
  · exact (q.isLocator.2 c hc).1
  · exact hquote
  · exact hsemicolon c hc

/-- It stands on one line. -/
theorem unbroken (q : QuotedLocator) : ∀ c ∈ q.text, Text.isBreak c = false := fun c hc =>
  Bool.eq_false_iff.2 fun hbreak => by
    have hblank := Text.isBlank_of_isBreak hbreak
    rw [q.isBlank_of_mem_text c hc] at hblank
    cases hblank

/-- Without its quotes it is the locator. -/
theorem unquote_text (q : QuotedLocator) : unquote q.text = q.locator := by
  -- A semicolon is dropped if there is one, and the closing quote is none.
  have hdrop : dropSemicolon q.text = q.quote :: (q.locator ++ [q.quote]) := by
    cases hsemicolon : q.hasSemicolon with
    | true =>
      have htext : q.text = q.quote :: (q.locator ++ [q.quote]) ++ [';'] := by
        simp [text, hsemicolon]
      rw [dropSemicolon, htext, List.getLast?_concat, if_pos rfl, List.dropLast_concat]
    | false =>
      have htext : q.text = q.quote :: q.locator ++ [q.quote] := by simp [text, hsemicolon]
      have hne : q.quote ≠ ';' := by
        intro heq
        have h := q.isQuote_quote
        rw [heq] at h
        exact absurd h (by decide)
      rw [dropSemicolon, htext, List.getLast?_concat, if_neg (by simpa using hne)]
      rfl
  have hkept : q.locator.filter (fun c => !isQuote c) = q.locator :=
    List.filter_eq_self.2 fun c hc => by rw [(q.isLocator.2 c hc).2, Bool.not_false]
  rw [unquote, hdrop]
  simp [q.isQuote_quote, hkept]

end QuotedLocator

/-- A quoted locator at the end of a statement is the last word, and its locator is read. -/
theorem locator_append_quoted {front : List Char} {blank : Char} (hfront : Text.words front ≠ [])
    (hblank : Text.isBlank blank = true) (q : QuotedLocator) (e : Option Text.Ending) :
    locator (front ++ blank :: (q.text ++ Text.endingText e)) = .ok q.locator := by
  have hending : ∀ c ∈ Text.endingText e, Text.isBlank c = true := fun c hc =>
    Text.isBlank_of_isBreak (Text.isBreak_of_mem_endingText hc)
  have hwords : Text.words (front ++ blank :: (q.text ++ Text.endingText e)) =
      Text.words front ++ [q.text] := by
    rw [Text.words_append_cons hblank, Text.words_append_blanks _ hending,
      Text.words_eq_singleton q.text_ne_nil q.isBlank_of_mem_text]
  -- There are words before the last one.
  obtain ⟨word, others, hothers⟩ :=
    List.exists_cons_of_ne_nil (mt List.reverse_eq_nil_iff.1 hfront)
  rw [locator, hwords, List.reverse_append, hothers]
  simp only [List.reverse_singleton, List.singleton_append, q.unquote_text, q.isLocator.1,
    ↓reduceIte]

/-! ## Texts of parts -/

/-- What stands last in a text, as lines: if it is nothing, there is no line. -/
def lastLines (l : Line) : List Line :=
  if l.isEmpty then [] else [l]

/-- A last line that is not empty is a line. -/
theorem lastLines_of_ne_nil (h : l ≠ []) : lastLines l = [l] := by
  simp [lastLines, h]

/-- There is at most that one. -/
theorem eq_of_mem_lastLines {m : Line} (h : m ∈ lastLines l) : m = l := by
  unfold lastLines at h
  split at h
  · cases h
  · exact List.mem_singleton.1 h

/-- Lines that all have endings are cut off a text as they were written. -/
theorem lines_flatten_append {ls : List Line}
    (hls : ∀ l ∈ ls, ∃ content ending, (∀ c ∈ content, Text.isBreak c = false) ∧
      l = content ++ Text.endingText (some ending)) (s : List Char) :
    Text.lines (ls.flatten ++ s) = ls ++ Text.lines s := by
  induction ls with
  | nil => rfl
  | cons l ls ih =>
    simp only [List.mem_cons, forall_eq_or_imp] at hls
    obtain ⟨⟨content, ending, hcontent, rfl⟩, hls⟩ := hls
    -- The first line ends where its ending stands, since nothing before it breaks a line.
    rw [List.flatten_cons, List.append_assoc, List.append_assoc,
      Text.lines_append_ending hcontent, ih hls]
    rfl

/-- The last line of a part is cut off too. A line without an ending has to be the last one, and is
none if there is nothing in it. -/
theorem lines_lastLine_append (hl : ∀ c ∈ l, Text.isBreak c = false) (he : e = none → s = []) :
    Text.lines (l ++ (Text.endingText e ++ s)) =
      lastLines (l ++ Text.endingText e) ++ Text.lines s := by
  cases e with
  | some ending =>
    have hne : l ++ Text.endingText (some ending) ≠ [] := by
      cases ending <;> simp [Text.endingText]
    rw [Text.lines_append_ending hl, lastLines_of_ne_nil hne]
    rfl
  | none =>
    -- Only the last line of the text may go without an ending.
    rw [he rfl]
    by_cases hempty : l = []
    · rw [hempty]
      rfl
    · simp only [Text.endingText, List.append_nil, lastLines_of_ne_nil hempty, Text.lines_nil,
        Text.lines_of_unbroken hempty hl]

/-! ## Statements of texts -/

/-- Lines that start no statement are passed over. -/
theorem statementBlocks_append {ls : List Line} (hls : ∀ l ∈ ls, startsStatement l = false)
    (joinBlocks : Bool) (rest : List Line) :
    statementBlocks joinBlocks (ls ++ rest) = statementBlocks joinBlocks rest := by
  induction ls with
  | nil => rfl
  | cons l ls ih =>
    simp only [List.mem_cons, forall_eq_or_imp] at hls
    rw [List.cons_append, statementBlocks, hls.1, if_neg Bool.false_ne_true, ih hls.2]

/-- A block goes on to the first line that closes it. -/
theorem blockRest?_append {inner : List Line} {closer : Line}
    (hinner : ∀ l ∈ inner, startsStatement l = false ∧ closesBlock l = false)
    (hplain : startsStatement closer = false) (hcloses : closesBlock closer = true)
    (rest : List Line) : blockRest? (inner ++ closer :: rest) = some (inner ++ [closer]) := by
  induction inner with
  | nil => simp [blockRest?, hplain, hcloses]
  -- A line inside the block neither closes it nor starts a statement.
  | cons l inner ih =>
    simp only [List.mem_cons, forall_eq_or_imp] at hinner
    simp [blockRest?, hinner.1.1, hinner.1.2, ih hinner.2]

/-- A statement on one line starts a statement and opens no block. -/
theorem SingleLayout.startsStatement_text (layout : SingleLayout) (e : Option Text.Ending) :
    startsStatement (layout.text ++ Text.endingText e) = true := by
  rw [startsStatement_iff, text, List.append_assoc]
  exact List.prefix_append _ _

/-- A statement on one line opens no block, as its line ends with the locator. -/
theorem SingleLayout.opensBlock_text (layout : SingleLayout) (e : Option Text.Ending) :
    opensBlock (layout.text ++ Text.endingText e) = false := by
  obtain ⟨front, c, htext, hc⟩ := layout.quoted.exists_text_eq
  have hlast : layout.text = (statementWord ++ ' ' :: (layout.clause ++ front)) ++ [c] := by
    simp only [text, htext, List.append_assoc, List.cons_append]
  rw [hlast]
  exact opensBlock_eq_false hc _ e

/-- Its locator is the quoted one. -/
theorem SingleLayout.locator_text (layout : SingleLayout) (e : Option Text.Ending) :
    locator ([].flatten ++ (layout.text ++ Text.endingText e)) = .ok layout.quoted.locator := by
  have hwords (s : List Char) : Text.words (statementWord ++ s) ≠ [] := by
    rw [statementWord_eq]
    exact Text.words_cons_ne_nil (by decide) _
  -- The quoted locator stands behind the word itself, or behind the clause.
  rcases layout.spaced with hclause | ⟨front, blank, hclause, hblank⟩
  · -- The locator is read off the last word, so all that comes before it is kept in one piece.
    have htext : [].flatten ++ (layout.text ++ Text.endingText e) = (statementWord ++ []) ++
        ' ' :: (layout.quoted.text ++ Text.endingText e) := by
      simp only [text, hclause, List.flatten_nil, List.nil_append, List.append_nil,
        List.append_assoc, List.cons_append]
    rw [htext]
    exact locator_append_quoted (hwords _) (by decide) _ e
  · have htext : [].flatten ++ (layout.text ++ Text.endingText e) =
        (statementWord ++ ' ' :: front) ++
          blank :: (layout.quoted.text ++ Text.endingText e) := by
      simp only [text, hclause, List.flatten_nil, List.nil_append, List.append_assoc,
        List.cons_append]
    rw [htext]
    exact locator_append_quoted (hwords _) hblank _ e

/-- The first word of a block starts at the beginning of the opener. -/
theorem BlockLayout.words_front_ne_nil (b : BlockLayout) :
    Text.words (b.frontLines.flatten ++ b.front) ≠ [] := by
  obtain ⟨rest, hrest⟩ := startsStatement_iff.1 b.starts
  simp only [frontLines, List.flatten_cons, ← hrest, List.append_assoc]
  rw [statementWord_eq]
  exact Text.words_cons_ne_nil (by decide) _

namespace SourcePart

/-- All lines but the last one are ended. -/
theorem frontLines_ended (p : SourcePart) : ∀ l ∈ p.frontLines, ∃ content ending,
    (∀ c ∈ content, Text.isBreak c = false) ∧ l = content ++ Text.endingText (some ending) := by
  cases p with
  | other line plain => exact nofun
  | single layout => exact nofun
  | block b =>
    intro l hl
    rcases List.mem_cons.1 hl with rfl | hl
    · exact ⟨_, _, b.opener.unbroken, rfl⟩
    · obtain ⟨⟨line, ending⟩, -, rfl⟩ := List.mem_map.1 hl
      exact ⟨_, _, line.unbroken, rfl⟩

/-- The last line is not ended by itself. -/
theorem lastLine_unbroken (p : SourcePart) : ∀ c ∈ p.lastLine, Text.isBreak c = false := by
  -- Each kind of part has its own last line, made of pieces without breaks.
  cases p with
  | other line plain => exact line.unbroken
  | single l =>
    intro c hc
    rw [lastLine, SingleLayout.text, List.mem_append, List.mem_cons, List.mem_append] at hc
    rcases hc with hc | rfl | hc | hc
    · exact isBreak_of_mem_statementWord c hc
    · decide
    · exact l.unbroken c hc
    · exact l.quoted.unbroken c hc
  | block b =>
    intro c hc
    rw [lastLine, BlockLayout.lastLine, List.mem_append, List.mem_cons] at hc
    rcases hc with hc | rfl | hc
    · exact b.front_unbroken c hc
    · exact b.isBreak_blank
    · exact b.quoted.unbroken c hc

/-- The lines of a text that starts with a part: those of the part come first. -/
theorem lines_text_append (p : SourcePart) (he : e = none → s = []) :
    Text.lines (p.text e ++ s) =
      p.frontLines ++ (lastLines (p.lastLine ++ Text.endingText e) ++ Text.lines s) := by
  rw [text, List.append_assoc, List.append_assoc, lines_flatten_append p.frontLines_ended,
    lines_lastLine_append p.lastLine_unbroken he]

/-- A part is cut off the text that it starts: if it is a statement, as one, and else it gives
nothing. -/
theorem statements_text_append (p : SourcePart) (he : e = none → s = []) :
    statements true (p.text e ++ s) =
      (if p.locator?.isSome then [p.text e] else []) ++ statements true s := by
  unfold statements
  rw [p.lines_text_append he]
  cases p with
  | other line plain =>
    -- A line that starts no statement is passed over.
    have hplain : ∀ l ∈ lastLines (line.text ++ Text.endingText e),
        startsStatement l = false := by
      intro l hl
      rw [eq_of_mem_lastLines hl, startsStatement_append_ending, plain]
    exact congrArg (List.map List.flatten) (statementBlocks_append hplain true (Text.lines s))
  | single l =>
    have hstarts := l.startsStatement_text e
    have hopens := l.opensBlock_text e
    have hne : l.text ++ Text.endingText e ≠ [] := by
      intro hnil
      rw [hnil] at hstarts
      cases hstarts
    simp only [frontLines, lastLine, lastLines_of_ne_nil hne, List.nil_append,
      List.singleton_append, statementBlocks, hstarts, hopens, Bool.and_false, Bool.false_eq_true,
      ↓reduceIte, List.map_cons, locator?, Option.isSome_some, text, List.flatten_cons,
      List.flatten_nil, List.append_nil]
  | block b =>
    have hstarts : startsStatement (b.opener.text ++ Text.endingText (some b.openerEnding)) =
        true := by
      rw [startsStatement_append_ending, b.starts]
    have hinner : ∀ l ∈ b.inner.map fun l => l.1.text ++ Text.endingText (some l.2),
        startsStatement l = false ∧ closesBlock l = false := by
      intro l hl
      obtain ⟨line, hline, rfl⟩ := List.mem_map.1 hl
      rw [startsStatement_append_ending, closesBlock_append_ending]
      exact b.inner_plain line hline
    have hplain : startsStatement (b.lastLine ++ Text.endingText e) = false :=
      (startsStatement_append_ending _ e).trans b.closer_plain
    have hcloses : closesBlock (b.lastLine ++ Text.endingText e) = true :=
      (closesBlock_append_ending _ e).trans b.closes
    have hne : b.lastLine ++ Text.endingText e ≠ [] := by simp [BlockLayout.lastLine]
    -- The opener takes the rest of the block to itself, where no other statement starts.
    simp only [frontLines, lastLine, lastLines_of_ne_nil hne, BlockLayout.frontLines,
      List.cons_append, statementBlocks, hstarts, ↓reduceIte, Bool.true_and,
      opensBlock_append_ending b.opens, blockRest?_append hinner hplain hcloses, Option.getD_some,
      statementBlocks_append fun l hl => (hinner l hl).1, hplain, Bool.false_eq_true]
    simp [locator?, text, frontLines, lastLine, BlockLayout.frontLines]

/-- The locator that is written into a statement is read back. -/
theorem locator_text {p : SourcePart} (e : Option Text.Ending) (h : p.locator? = some l) :
    locator (p.text e) = .ok l := by
  cases p with
  | other line plain => cases h
  | single layout =>
    cases h
    exact layout.locator_text e
  | block b =>
    cases h
    have htext : (block b).text e = (b.frontLines.flatten ++ b.front) ++
        b.blank :: (b.quoted.text ++ Text.endingText e) := by
      simp only [text, frontLines, lastLine, BlockLayout.lastLine, List.append_assoc,
        List.cons_append]
    rw [htext]
    exact locator_append_quoted b.words_front_ne_nil b.isBlank_blank _ e

end SourcePart

/-! ## Whole texts -/

/-- A text without parts in front of it holds the statement of its last part. -/
theorem statements_text (p : SourcePart) :
    statements true (p.text none) = if p.locator?.isSome then [p.text none] else [] := by
  have h := p.statements_text_append (e := none) (s := []) fun _ => rfl
  have hnil : statements true [] = [] := rfl
  rwa [List.append_nil, hnil, List.append_nil] at h

/-- What is read from the statement of a part is the locator that was written into it. -/
theorem map_locator_part (p : SourcePart) (e : Option Text.Ending) :
    (if p.locator?.isSome then [p.text e] else []).map locator =
      (p.locator?.map Except.ok).toList := by
  cases hlocator : p.locator? with
  | none => rfl
  | some l =>
    rw [Option.isSome_some, if_pos rfl, List.map_singleton, p.locator_text e hlocator]
    rfl

/-- The locators that are written into the statements of a text are read back, in order. -/
theorem map_locator_sourceText (parts : List (SourcePart × Text.Ending))
    (last : Option SourcePart) :
    (statements true (sourceText parts last)).map locator =
      ((parts.map (·.1) ++ last.toList).filterMap (·.locator?)).map .ok := by
  induction parts with
  | nil =>
    -- Only the last part can do without an ending.
    cases last with
    | none => rfl
    | some p =>
      have h := map_locator_part p none
      rw [← statements_text] at h
      rw [sourceText, List.flatMap_nil, List.nil_append, Option.elim_some, h]
      cases hlocator : p.locator? <;> simp [hlocator]
  | cons part parts ih =>
    obtain ⟨p, e⟩ := part
    have htext : sourceText ((p, e) :: parts) last = p.text (some e) ++ sourceText parts last := by
      rw [sourceText, List.flatMap_cons, List.append_assoc, sourceText]
    rw [htext, p.statements_text_append (e := some e) nofun, List.map_append, ih, map_locator_part]
    cases hlocator : p.locator? <;> simp [hlocator]

/-! ## What a locator is -/

/-- Whatever is read as a locator holds neither white space nor quotes. -/
theorem isLocator_of_locator_eq_ok (h : locator s = .ok l) : IsLocator l := by
  refine ⟨ne_nil_of_locator_eq_ok h, fun c hc => ⟨?_, not_isQuote_of_mem_locator h hc⟩⟩
  unfold locator at h
  split at h
  · rename_i last word others hwords
    split at h
    · cases h
    · -- The locator is a part of the last word.
      cases h
      have hlast : last ∈ Text.words s := by
        rw [← List.mem_reverse, hwords]
        exact List.mem_cons_self
      have hdropped : c ∈ dropSemicolon last := (List.mem_filter.1 hc).1
      unfold dropSemicolon at hdropped
      split at hdropped
      · exact Text.isBlank_of_mem_words hlast c (List.dropLast_subset last hdropped)
      · exact Text.isBlank_of_mem_words hlast c hdropped
  · cases h

/-- A locator that is quoted behind `import` is read back. -/
theorem locator_quoted (hl : IsLocator l) :
    locator (statementWord ++ ' ' :: '\'' :: (l ++ ['\''])) = .ok l := by
  have h := (SourcePart.single ⟨[], nofun, .inl rfl, ⟨l, hl, '\'', rfl, false⟩⟩).locator_text none
    rfl
  simpa only [SourcePart.text, SourcePart.frontLines, SourcePart.lastLine, SingleLayout.text,
    QuotedLocator.text, Text.endingText, List.flatten_nil, List.nil_append, List.append_nil,
    Bool.false_eq_true, ↓reduceIte] using h

/-- In a text that is put together from statements and other lines, the locators of the statements
are read back, in order. Conversely everything that is read as a locator holds neither white space
nor quotes, and is read again when it stands quoted behind `import`; an opening quote alone is no
locator. -/
theorem map_locator_statements :
    (∀ (parts : List (SourcePart × Text.Ending)) (last : Option SourcePart),
      (statements true (sourceText parts last)).map locator =
        ((parts.map (·.1) ++ last.toList).filterMap (·.locator?)).map .ok) ∧
    (∀ line l, locator line = .ok l →
      IsLocator l ∧ locator (statementWord ++ ' ' :: '\'' :: (l ++ ['\''])) = .ok l) ∧
    locator (statementWord ++ [' ', '\'']) = .error .empty := by
  refine ⟨map_locator_sourceText, fun line l h => ?_, rfl⟩
  have hl := isLocator_of_locator_eq_ok h
  exact ⟨hl, locator_quoted hl⟩

/-- A block, a comment, and a statement in double quotes on the last line. -/
example : (statements true
    "import \x7b\r\n  a,\n\x7d from './b';\n// c\nimport d from \"e\"".toList).map
      (fun statement => (locator statement).toOption) = [some "./b".toList, some "e".toList] := by
  decide

end ImportAtlas
