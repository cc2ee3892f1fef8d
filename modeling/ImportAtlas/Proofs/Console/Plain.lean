import ImportAtlas.Console.Plain
import ImportAtlas.Proofs.Console.Screen
import ImportAtlas.Proofs.Text.Lines

/-!
# The laws hold of the plain screen

The plain screen keeps the laws of a screen, whichever way it measures lines, as long as the
printed characters take up one column each. A line of such characters is then as wide as it is long.
In a table, a column is as wide as its longest text, so no text of it is broken, and each row is one
line.

## Key results

- `Console.Plain.read_of_not_mem`, `Console.Plain.read_around_styled`: what is read of a text
  without brackets, and of one that has no brackets but those of a style
- `Console.Plain.drawn_eq`: a table that has room is drawn with a line for each row
- `Console.Plain.screen_laws`: the laws
-/

namespace ImportAtlas

namespace Console

namespace Plain

/-! ## Reading -/

/-- What is kept of characters that have been read. -/
def kept (s : List Char) : String :=
  String.ofList (s.filter fun c => !isDropped c)

/-- Whether all characters of a line are printed ones. -/
def IsPrinted (line : List Char) : Prop :=
  ∀ c ∈ line, isPrinted c = true

variable {line : List Char} {text : String}

/-- What is told by its number cannot be a printed character below the space. -/
private theorem ne_of_isPrinted {c d : Char} (hc : isPrinted c = true)
    (hd : isPrinted d = false) : c ≠ d := by
  rintro rfl
  rw [hc] at hd
  cases hd

/-- A printed text has no character that is not printed as it is. -/
theorem IsPrinted.not_mem {d : Char} (h : IsPrinted line) (hd : isPrinted d = false) : d ∉ line :=
  fun hmem => ne_of_isPrinted (h d hmem) hd rfl

/-- Printed texts make a printed text. -/
theorem IsPrinted.append {line' : List Char} (h : IsPrinted line) (h' : IsPrinted line') :
    IsPrinted (line ++ line') :=
  fun c hc => (List.mem_append.1 hc).elim (h c) (h' c)

theorem isPrinted_spaces (n : Nat) : IsPrinted (List.replicate n ' ') := by
  intro c hc
  rw [List.eq_of_mem_replicate hc]
  decide

/-- Printed characters are kept. -/
theorem kept_of_isPrinted (h : IsPrinted text.toList) : kept text.toList = text := by
  have hkept : text.toList.filter (fun c => !isDropped c) = text.toList := by
    refine List.filter_eq_self.2 fun c hc => ?_
    have hprinted := h c hc
    simp only [isDropped, Bool.not_eq_true', Bool.or_eq_false_iff, beq_eq_false_iff_ne]
    exact ⟨⟨⟨⟨ne_of_isPrinted hprinted (by decide), ne_of_isPrinted hprinted (by decide)⟩,
      ne_of_isPrinted hprinted (by decide)⟩, ne_of_isPrinted hprinted (by decide)⟩,
      ne_of_isPrinted hprinted (by decide)⟩
  rw [kept, hkept, String.ofList_toList]

/-- A text without the separator is one piece. -/
private theorem splitOn_of_not_mem {d : Char} (h : d ∉ line) : line.splitOn d = [line] := by
  have hline : ∀ l ∈ [line], d ∉ l := by simpa using h
  simpa using List.splitOn_intercalate d hline (List.cons_ne_nil _ _)

/-- What is read of a text without brackets. -/
theorem read_of_not_mem (h : '[' ∉ text.toList) : read text = .ok (kept text.toList) := by
  rw [read, splitOn_of_not_mem h]
  simp [readPieces, kept, pure, Except.pure, bind, Except.bind]

/-- A tag up to its bracket, at the start of a piece. -/
theorem tagOf?_append {tag : List Char} (htag : ']' ∉ tag) (hstart : tag.head?.any startsTag = true)
    (rest : List Char) : tagOf? (tag ++ ']' :: rest) = some (tag, rest) := by
  -- The tag ends at the first closing bracket, and has none inside.
  have hall : ∀ c ∈ tag, (c != ']') = true := by
    intro c hc
    rw [bne_iff_ne]
    rintro rfl
    exact htag hc
  have hhead : (tag ++ ']' :: rest).head?.any startsTag = true := by
    cases tag with
    | nil => cases hstart
    | cons c tag => exact hstart
  unfold tagOf?
  rw [hhead, List.dropWhile_append_of_pos hall, List.takeWhile_append_of_pos hall]
  simp

/-- A tag that starts a style, with its end behind it, leaves the rest of the text. -/
theorem readPieces_styled {style : List Char} (hstyle : ']' ∉ style)
    (hstart : style.head?.any startsTag = true) (hopen : style.head? ≠ some '/')
    (hname : styleOf style ≠ []) (position : Nat) (text behind : List Char) :
    readPieces [] position [style ++ ']' :: text, '/' :: style ++ ']' :: behind] =
      .ok (text ++ behind) := by
  -- The first tag is put on the stack, and the second one takes it off again.
  have hfirst : ∀ n, applyTag [] style n = .ok [styleOf style] := by
    intro n
    unfold applyTag
    split
    · exact absurd rfl hopen
    · rfl
  have hlast : ∀ n, applyTag [styleOf style] ('/' :: style) n = .ok [] := by
    intro n
    simp [applyTag, hname]
  have htag : ']' ∉ '/' :: style := by simpa using hstyle
  rw [readPieces, tagOf?_append hstyle hstart]
  simp only [hfirst, bind, Except.bind]
  rw [readPieces, tagOf?_append htag rfl]
  simp only [hlast, bind, Except.bind, readPieces, pure, Except.pure, List.append_nil]

/-- The styles in use are names of styles. -/
private theorem styles_spec {style : String} (h : style ∈ styles) :
    '[' ∉ style.toList ∧ ']' ∉ style.toList ∧ style.toList.head?.any startsTag = true ∧
      style.toList.head? ≠ some '/' ∧ styleOf style.toList ≠ [] := by
  simp only [styles, List.mem_cons, List.not_mem_nil, or_false] at h
  rcases h with rfl | rfl | rfl | rfl <;> decide

/-- What is read of a text that has no brackets but those of a style. -/
theorem read_around_styled {style before text behind : String} (hstyle : style ∈ styles)
    (hbefore : '[' ∉ before.toList) (htext : '[' ∉ text.toList) (hbehind : '[' ∉ behind.toList) :
    read (before ++ styled style text ++ behind) =
      .ok (kept (before ++ text ++ behind).toList) := by
  obtain ⟨hbracket, hclosing, hstart, hopen, hname⟩ := styles_spec hstyle
  -- The only brackets are those of the two tags.
  have hpieces : (before ++ styled style text ++ behind).toList.splitOn '[' =
      [before.toList, style.toList ++ ']' :: text.toList,
        '/' :: style.toList ++ ']' :: behind.toList] := by
    have hletters : (before ++ styled style text ++ behind).toList =
        ['['].intercalate [before.toList, style.toList ++ ']' :: text.toList,
          '/' :: style.toList ++ ']' :: behind.toList] := by
      simp [styled, List.intercalate]
    rw [hletters]
    refine List.splitOn_intercalate '[' ?_ (List.cons_ne_nil _ _)
    simp [hbefore, htext, hbehind, hbracket]
  rw [read, hpieces]
  simp only [readPieces_styled hclosing hstart hopen hname, bind, Except.bind, pure, Except.pure,
    kept, String.toList_append, List.append_assoc]

/-- Readings that all succeed succeed together. -/
private theorem mapM_of_ok {α β ε : Type} {f : α → Except ε β} {g : α → β} {l : List α}
    (h : ∀ a ∈ l, f a = .ok (g a)) : l.mapM f = .ok (l.map g) := by
  induction l with
  | nil => rfl
  | cons a l ih =>
    rw [List.forall_mem_cons] at h
    rw [List.mapM_cons, h.1, ih h.2]
    rfl

/-- A table is read if its texts are. -/
theorem readTable_of_ok {t : Table} {seen : String → String}
    (h : ∀ text ∈ t.texts, read text = .ok (seen text)) : readTable t = .ok (t.map seen) := by
  obtain ⟨htitle, hcells⟩ := List.forall_mem_cons.1 h
  -- Each cell is one of the texts of the table.
  have hrow {row : List String} (hmem : row ∈ t.allRows) : row.mapM read = .ok (row.map seen) :=
    mapM_of_ok fun text htext => hcells text (List.mem_flatten.2 ⟨row, hmem, htext⟩)
  have hrows : t.rows.mapM (·.mapM read) = .ok (t.rows.map (·.map seen)) :=
    mapM_of_ok fun row hmem => hrow (List.mem_append_right _ hmem)
  have hheadings : t.headings.mapM (·.mapM read) = .ok (t.headings.map (·.map seen)) := by
    cases hheads : t.headings with
    | none => rfl
    | some headings =>
      rw [Option.mapM_some, hrow (List.mem_append_left _ (by simp [hheads]))]
      rfl
  rw [readTable, htitle, hheadings, hrows]
  rfl

/-! ## Lines that have room -/

/-- A way to measure lines in which each printed character takes up one column. -/
def IsMeasure (columnsOf : List Char → Nat) : Prop :=
  ∀ line, IsPrinted line → columnsOf line = line.length

section Lines

variable {columnsOf : List Char → Nat} (hmeasure : IsMeasure columnsOf) {w : Nat}

include hmeasure

/-- Words that fit into a line stay in it. -/
theorem fill_of_fits {words : List (List Char)} (hprinted : IsPrinted (line ++ words.flatten))
    (hfits : (line ++ words.flatten).length ≤ w) :
    fill columnsOf w line line.length words = [line ++ words.flatten] := by
  induction words generalizing line with
  | nil => rw [fill, List.flatten_nil, List.append_nil]
  | cons word words ih =>
    rw [List.flatten_cons, ← List.append_assoc] at hprinted hfits ⊢
    have hword : IsPrinted word := fun c hc => hprinted c (by simp [hc])
    -- What is measured is the word without its blanks, which fits if the word does.
    have hsuffix : Text.trimEnd word <+: word := by
      have := List.dropWhile_suffix (p := Text.isBlank) (l := word.reverse)
      rw [← List.reverse_prefix, List.reverse_reverse] at this
      exact this
    have htrimmed : columnsOf (Text.trimEnd word) ≤ word.length := by
      rw [hmeasure _ fun c hc => hword c (hsuffix.subset hc)]
      exact hsuffix.length_le
    simp only [List.length_append] at hfits
    rw [fill, if_pos (by omega), hmeasure word hword, ← List.length_append,
      ih hprinted (by simpa [Nat.add_assoc] using hfits)]

/-- A line that fits is not broken. -/
theorem wrap_of_fits (hprinted : IsPrinted line) (hfits : line.length ≤ w) :
    wrap columnsOf w line = [line] := by
  -- A line that fits is filled with all its words.
  have hbroken : brokenLines columnsOf w line = [line] := by
    unfold brokenLines
    split
    · rfl
    · rename_i word words hwords
      have hline : word ++ words.flatten = line := by
        rw [← List.flatten_cons, ← hwords]
        exact flatten_wordsOf (hwords ▸ List.cons_ne_nil _ _)
      rw [← hline] at hprinted hfits
      have hword : IsPrinted word := fun c hc => hprinted c (List.mem_append_left _ hc)
      rw [hmeasure word hword, fill_of_fits hmeasure hprinted hfits, hline]
  have hdropped : dropExcess w line = line :=
    List.take_of_length_le (Nat.le_trans hfits (Nat.le_max_left _ _))
  rw [wrap, hbroken, List.map_singleton, hdropped, truncated, if_pos]
  rwa [hmeasure line hprinted]

omit hmeasure in
/-- A text of printed characters is one line. -/
theorem linesOf_of_isPrinted (h : IsPrinted text.toList) :
    linesOf columnsOf text = [text.toList] := by
  rw [linesOf, splitOn_of_not_mem (h.not_mem (by decide)), List.map_singleton, expandTabs,
    splitOn_of_not_mem (h.not_mem (by decide)), joinTabs]

/-- A printed text takes a column for each character. -/
theorem cellWidth_of_isPrinted (h : IsPrinted text.toList) :
    cellWidth columnsOf text = text.length := by
  -- None of the breaks is printed as it is.
  have hbreak : ∀ c ∈ text.toList, Text.isBreak c = false := by
    intro c hc
    by_contra hbreak
    rw [Bool.not_eq_false] at hbreak
    have hprinted := h c hc
    simp only [Text.isBreak, Bool.or_eq_true, beq_iff_eq] at hbreak
    rcases hbreak with ((((((((rfl | rfl) | rfl) | rfl) | rfl) | rfl) | rfl) | rfl) | rfl) | rfl
      <;> exact absurd hprinted (by decide)
  unfold cellWidth
  by_cases hempty : text.toList = []
  · rw [hempty, ← String.length_toList, hempty]
    rfl
  · rw [Text.lines_of_unbroken hempty hbreak, List.map_singleton, List.foldl_cons, List.foldl_nil,
      hmeasure _ h, Nat.zero_max, String.length_toList]

/-- A text that fits is one line of its column. -/
theorem cellLines_of_fits (h : IsPrinted text.toList) (hfits : text.length ≤ w) :
    cellLines columnsOf w text = [text.toList] := by
  rw [cellLines, linesOf_of_isPrinted h, List.flatMap_singleton, wrap_of_fits hmeasure h]
  rwa [String.length_toList]

/-- A text that fits is filled up to the width of its column. -/
theorem justify_of_fits (side : Side) (h : IsPrinted text.toList) (hfits : text.length ≤ w) :
    justify columnsOf side w text.toList = Table.justify side w text := by
  have hwidth : columnsOf text.toList = text.length := by
    rw [hmeasure _ h, String.length_toList]
  cases side with
  | left =>
    have hfilled : filled columnsOf w text.toList = Table.justify .left w text := by
      rw [filled, hwidth]
      rfl
    -- Filling it up once more adds nothing.
    have hagain : columnsOf (Table.justify .left w text) = w := by
      rw [Table.justify, hmeasure _ (h.append (isPrinted_spaces _)), List.length_append,
        List.length_replicate, String.length_toList]
      omega
    rw [justify, hfilled, filled, hagain, Nat.sub_self, List.replicate_zero, List.append_nil]
  | right =>
    rw [justify, hwidth]
    rfl

/-- A row of texts that fit is one line. -/
theorem rowLines_of_fits (bar : Char) (columns : List Side) {widths : List Nat} {row : List String}
    (h : ∀ cell ∈ widths.zip row, IsPrinted cell.2.toList ∧ cell.2.length ≤ cell.1) :
    rowLines columnsOf bar columns widths row = [Table.rowLine bar columns widths row] := by
  have hcells : cells columnsOf widths row = (widths.zip row).map fun cell => [cell.2.toList] :=
    List.map_congr_left fun cell hcell =>
      cellLines_of_fits hmeasure (h cell hcell).1 (h cell hcell).2
  -- All texts are one line high, so the row is.
  have hheight : (((widths.zip row).map fun cell => [cell.2.toList]).map List.length).foldl
      max 1 = 1 := by
    generalize widths.zip row = cells
    induction cells with
    | nil => rfl
    | cons cell cells ih => simpa using ih
  unfold rowLines Table.rowLine
  rw [hcells]
  dsimp only
  rw [hheight, List.range_one, List.map_singleton]
  congr 2
  -- The one line takes each text as it is.
  clear hcells hheight
  induction columns generalizing widths row with
  | nil => rfl
  | cons side columns ih =>
    cases widths with
    | nil => rfl
    | cons w widths =>
      cases row with
      | nil => rfl
      | cons text row =>
        rw [List.zip_cons_cons, List.forall_mem_cons] at h
        simp only [List.zip_cons_cons, List.map_cons, List.getElem?_cons_zero, Option.getD_some,
          ih h.2, justify_of_fits hmeasure side h.1.1 h.1.2]

/-! ## Tables that have room -/

omit hmeasure in
/-- The largest number is at least each of them. -/
private theorem le_foldl_max {a b : Nat} {l : List Nat} (h : a ≤ b ∨ a ∈ l) :
    a ≤ l.foldl max b := by
  induction l generalizing b with
  | nil => simpa using h
  | cons c l ih =>
    apply ih
    rcases h with h | h
    · exact .inl (Nat.le_trans h (Nat.le_max_left b c))
    · rcases List.mem_cons.1 h with rfl | h
      · exact .inl (Nat.le_max_right b a)
      · exact .inr h

omit hmeasure in
/-- A text of a row is no longer than its column is wide. -/
theorem length_le_widths {t : Table} {row : List String} (hrow : row ∈ t.allRows)
    (hlength : row.length = t.columns.length) :
    ∀ cell ∈ t.widths.zip row, cell.2.length ≤ cell.1 := by
  intro cell hcell
  obtain ⟨i, hi, rfl⟩ := List.mem_iff_getElem.1 hcell
  have hwidth : i < row.length := by simp at hi; omega
  simp only [List.getElem_zip, Table.widths, List.getElem_map, List.getElem_zipIdx, Nat.zero_add]
  -- A column is as wide as the widest of its cells, and this is one of them.
  refine le_foldl_max (.inr (List.mem_map.2 ⟨row, hrow, ?_⟩))
  rw [List.getElem?_eq_getElem hwidth, Option.getD_some]

/-- A table that has room is drawn with a line for each row. -/
theorem drawn_eq {t : Table} (hregular : t.IsRegular) (htitle : t.title.length ≤ t.width)
    (hprinted : ∀ text ∈ t.texts, IsPrinted text.toList) : drawn columnsOf t = t.drawn := by
  obtain ⟨hname, hcells⟩ := List.forall_mem_cons.1 hprinted
  have hcell {row : List String} (hrow : row ∈ t.allRows) {text : String} (htext : text ∈ row) :
      IsPrinted text.toList := hcells text (List.mem_flatten.2 ⟨row, hrow, htext⟩)
  -- A printed cell takes its length in columns, so the columns are as wide as the cells are long.
  have hwidths : widths columnsOf t = t.widths := by
    refine List.map_congr_left fun column _ => ?_
    dsimp only
    congr 1
    refine List.map_congr_left fun row hrow => cellWidth_of_isPrinted hmeasure ?_
    cases htext : row[column.2]? with
    | none => simp [IsPrinted]
    | some text => exact hcell hrow (List.mem_of_getElem? htext)
  -- Each cell fits into its column then, and a row is a single line.
  have hline (bar : Char) {row : List String} (hrow : row ∈ t.allRows) :
      rowLines columnsOf bar t.columns t.widths row =
        [Table.rowLine bar t.columns t.widths row] :=
    rowLines_of_fits hmeasure bar t.columns fun cell hmem =>
      ⟨hcell hrow (List.of_mem_zip hmem).2, length_le_widths hrow (hregular row hrow) cell hmem⟩
  have hrows : t.rows.flatMap (rowLines columnsOf '│' t.columns t.widths) =
      t.rows.map (Table.rowLine '│' t.columns t.widths) := by
    rw [List.map_eq_flatMap]
    exact List.flatMap_congr fun row hrow => hline '│' (List.mem_append_right _ hrow)
  have hheading : (cellLines columnsOf t.width t.title).map (justify columnsOf .left t.width) =
      [Table.justify .left t.width t.title] := by
    rw [cellLines_of_fits hmeasure hname htitle, List.map_singleton,
      justify_of_fits hmeasure .left hname htitle]
  unfold drawn Table.drawn
  rw [hwidths]
  rw [Table.width] at hheading
  dsimp only
  rw [hheading, hrows]
  cases hheads : t.headings with
  | none => rfl
  | some headings =>
    dsimp only
    rw [hline '┃' (List.mem_append_left _ (by simp [hheads]))]
    rfl

end Lines

/-! ## The laws -/

/-- A text that can be read is shown as it is seen. -/
theorem lines_of_read {columnsOf : List Char → Nat} {seen : String} (h : read text = .ok seen) :
    lines columnsOf (.text text) = .ok ((linesOf columnsOf seen).map String.ofList) := by
  rw [lines, h]
  rfl

/-- A table that can be read is drawn as it is seen. -/
theorem lines_of_readTable {columnsOf : List Char → Nat} {t seen : Table}
    (h : readTable t = .ok seen) : lines columnsOf (.table t) = .ok (drawn columnsOf seen) := by
  rw [lines, h]
  rfl

/-- The plain screen keeps the laws, whichever way it measures lines. -/
theorem screen_laws {columnsOf : List Char → Nat} (hmeasure : IsMeasure columnsOf) :
    (screen columnsOf).Laws where
  narrow_of_isPrinted _ h := h
  read_unmarked text hunmarked hnarrow :=
    (read_of_not_mem hunmarked.bracket_not_mem).trans (by rw [kept_of_isPrinted hnarrow])
  read_styled style hstyle before text behind hbefore htext hbehind hnarrow hnarrow' hnarrow''
      _ _ := by
    refine (read_around_styled hstyle hbefore.bracket_not_mem htext.bracket_not_mem
      hbehind.bracket_not_mem).trans ?_
    rw [kept_of_isPrinted ((hnarrow.append hnarrow').append hnarrow'')]
  lines_text text seen hread hnarrow _ := by
    refine (lines_of_read hread).trans ?_
    rw [linesOf_of_isPrinted hnarrow, List.map_singleton, String.ofList_toList]
  lines_table t seen hread hregular _ _ hroom := by
    refine (lines_of_readTable (readTable_of_ok fun text htext => (hread text htext).1)).trans ?_
    rw [drawn_eq hmeasure (hregular.map seen) hroom.1]
    rw [Table.texts_map, List.forall_mem_map]
    exact fun text htext => (hread text htext).2
  shows_text text h := ⟨_, lines_of_read (read_of_not_mem h)⟩
  shows_styled style hstyle before text behind hbefore htext hbehind _ :=
    ⟨_, lines_of_read (read_around_styled hstyle hbefore htext hbehind)⟩
  shows_table t h :=
    ⟨_, lines_of_readTable (readTable_of_ok fun text htext => read_of_not_mem (h text htext))⟩

end Plain

/-- The plain screen keeps the laws. -/
theorem Screen.plain_laws : Screen.plain.Laws := by
  refine Plain.screen_laws fun line hline => List.countP_eq_length.2 fun c hc => ?_
  have hprinted := hline c hc
  simp only [isPrinted, Bool.or_eq_true, Bool.and_eq_true, decide_eq_true_eq, beq_iff_eq]
    at hprinted
  simp only [Bool.and_eq_true, decide_eq_true_eq, Bool.not_eq_true', Bool.and_eq_false_iff,
    decide_eq_false_iff_not]
  -- No printed character is a control character.
  rcases hprinted with h | rfl
  · omega
  · decide

end Console

end ImportAtlas
