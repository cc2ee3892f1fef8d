import Mathlib.Data.List.Basic
import ImportAtlas.Proofs.Import.Layout

/-!
# Statements as spans of lines

Each line that starts a statement is the first one of a span of lines. The span is that line alone,
or, if it opens a block, goes on to the first line that closes it, unless another statement starts
before. So spans do not overlap, and what stands before a line that starts a statement says nothing
about what comes after it.

## Key results

- `EndsBlock.isSome_blockRest?`, `endsBlock_of_blockRest?`: where a block ends
- `statementBlocks_eq_map`: the statements of a list of lines, one for each line that starts one
- `statements_spans`: the statements of a text, span by span
- `statements_append`: the statements of two texts that are put together
-/

namespace ImportAtlas

/-! ## Lines -/

/-- A line opens a block if it ends in an opening brace, behind which stands one of the usual
endings. -/
theorem opensBlock_iff {l : Line} :
    opensBlock l = true ↔ ['\x7b', '\n'] <:+ l ∨ ['\x7b', '\r', '\n'] <:+ l := by
  rw [opensBlock, Bool.or_eq_true, List.isSuffixOf_iff_suffix, List.isSuffixOf_iff_suffix]
  rfl

/-- A line closes a block if it has a closing brace. -/
theorem closesBlock_iff {l : Line} : closesBlock l = true ↔ '\x7d' ∈ l :=
  List.contains_iff_mem

/-- The lines from number `i` to number `e`, both included. -/
def span (ls : List Line) (i e : Nat) : List Line :=
  (ls.drop i).take (e + 1 - i)

/-- Line `e` ends the block that line `i` opens: it is the first one below with a closing brace, and
no statement starts before it or on it. -/
structure EndsBlock (ls : List Line) (i e : Nat) : Prop where
  opens : ∃ l ∈ ls[i]?, ['\x7b', '\n'] <:+ l ∨ ['\x7b', '\r', '\n'] <:+ l
  lt : i < e
  closes : ∃ l ∈ ls[e]?, '\x7d' ∈ l
  open_before : ∀ j, i < j → j < e → ∀ l ∈ ls[j]?, '\x7d' ∉ l
  plain : ∀ j, i < j → j ≤ e → ∀ l ∈ ls[j]?, ¬ statementWord <+: l

/-- Line `e` is the last one of the statement that starts on line `i`. -/
def IsLastLine (joinBlocks : Bool) (ls : List Line) (i e : Nat) : Prop :=
  joinBlocks = true ∧ EndsBlock ls i e ∨
    e = i ∧ ¬ (joinBlocks = true ∧ ∃ e', EndsBlock ls i e')

/-- The number of the last line of the statement that starts on line `i`. -/
def lastLineOf (joinBlocks : Bool) (ls : List Line) (i : Nat) : Nat :=
  if joinBlocks && ls[i]?.any opensBlock then
    i + ((blockRest? (ls.drop (i + 1))).getD []).length
  else i

/-- The numbers of the lines of a text on which statements start. -/
def startingLines (text : List Char) : List Nat :=
  (Text.lines text).findIdxs startsStatement

variable {joinBlocks : Bool} {ls rest : List Line} {i e : Nat}

/-! ## Where a block ends -/

/-- The rest of a block is the lines up to the first one that closes it, none of which starts a
statement. -/
theorem exists_of_blockRest? (h : blockRest? ls = some rest) : ∃ inner closer after,
    ls = inner ++ closer :: after ∧ rest = inner ++ [closer] ∧
      (∀ l ∈ inner, startsStatement l = false ∧ closesBlock l = false) ∧
      startsStatement closer = false ∧ closesBlock closer = true := by
  induction ls generalizing rest with
  | nil => cases h
  | cons l ls ih =>
    rw [blockRest?] at h
    split at h
    · cases h
    · -- The line starts no statement; the block ends here if it closes it, else further down.
      rename_i hplain
      split at h
      · rename_i hcloses
        cases h
        exact ⟨[], l, ls, rfl, rfl, List.forall_mem_nil _, eq_false_of_ne_true hplain, hcloses⟩
      · rename_i hopen
        obtain ⟨rest, hrest, rfl⟩ := Option.map_eq_some_iff.1 h
        obtain ⟨inner, closer, after, rfl, rfl, hinner, hcloser⟩ := ih hrest
        refine ⟨l :: inner, closer, after, rfl, rfl, List.forall_mem_cons.2 ⟨?_, hinner⟩, hcloser⟩
        exact ⟨eq_false_of_ne_true hplain, eq_false_of_ne_true hopen⟩

/-- The rest of a block is where the lines below the opener start. -/
theorem eq_take_of_blockRest? (h : blockRest? ls = some rest) : rest = ls.take rest.length := by
  obtain ⟨inner, closer, after, rfl, rfl, -⟩ := exists_of_blockRest? h
  exact List.prefix_iff_eq_take.1 ⟨after, by simp⟩

/-- If a line closes the block before another statement starts, the block has a rest. -/
theorem isSome_blockRest? {n : Nat} {closer : Line} (hcloser : ls[n]? = some closer)
    (hcloses : closesBlock closer = true)
    (hplain : ∀ j ≤ n, ∀ l ∈ ls[j]?, startsStatement l = false) : (blockRest? ls).isSome := by
  induction ls generalizing n with
  | nil => cases hcloser
  | cons l ls ih =>
    have hl : startsStatement l = false := hplain 0 (Nat.zero_le n) l rfl
    rw [blockRest?, if_neg (by simp [hl])]
    split
    · rfl
    · rename_i hopen
      -- The line that closes the block is one of those below.
      cases n with
      | zero =>
        cases hcloser
        exact absurd hcloses hopen
      | succ n =>
        rw [Option.isSome_map]
        exact ih hcloser fun j hj => hplain (j + 1) (Nat.succ_le_succ hj)

/-- A block that is ended has such a rest. -/
theorem EndsBlock.isSome_blockRest? (h : EndsBlock ls i e) :
    (blockRest? (ls.drop (i + 1))).isSome := by
  obtain ⟨closer, hcloser, hcloses⟩ := h.closes
  have hlt := h.lt
  have hbelow : (ls.drop (i + 1))[e - (i + 1)]? = some closer := by
    rw [List.getElem?_drop, Nat.add_sub_cancel' hlt]
    exact hcloser
  refine ImportAtlas.isSome_blockRest? hbelow (closesBlock_iff.2 hcloses) fun j hj l hl => ?_
  rw [List.getElem?_drop] at hl
  refine eq_false_of_ne_true fun hstarts => ?_
  exact h.plain (i + 1 + j) (by omega) (by omega) l hl (startsStatement_iff.1 hstarts)

/-- A block with such a rest is ended by its last line. -/
theorem endsBlock_of_blockRest? (hopens : ls[i]?.any opensBlock = true)
    (h : blockRest? (ls.drop (i + 1)) = some rest) : EndsBlock ls i (i + rest.length) := by
  obtain ⟨inner, closer, after, hbelow, rfl, hinner, hplain, hcloses⟩ := exists_of_blockRest? h
  have hget (k : Nat) : ls[i + 1 + k]? = (inner ++ closer :: after)[k]? := by
    rw [← hbelow, List.getElem?_drop]
  -- The block is the opener, the inner lines, and the closer.
  have hlast : i + (inner ++ [closer]).length = i + 1 + inner.length := by simp; omega
  have hclosing : ls[i + 1 + inner.length]? = some closer := by
    rw [hget, List.getElem?_append_right (Nat.le_refl _), Nat.sub_self]
    rfl
  -- Lines between the opener and the last one are among the inner ones.
  have hbetween {j : Nat} (hij : i < j) (hj : j < i + 1 + inner.length) {l : Line}
      (hl : l ∈ ls[j]?) : l ∈ inner := by
    obtain ⟨k, rfl⟩ := Nat.exists_eq_add_of_le hij
    rw [hget, List.getElem?_append_left (by omega)] at hl
    exact List.mem_of_getElem? hl
  rw [hlast]
  refine ⟨?_, by omega, ⟨closer, hclosing, closesBlock_iff.1 hcloses⟩, ?_, ?_⟩
  · obtain ⟨hsome, hopener⟩ := (Option.any_eq_true_iff_get _ _).1 hopens
    exact ⟨_, Option.get_mem hsome, opensBlock_iff.1 hopener⟩
  · intro j hij hj l hl hmem
    have := (hinner l (hbetween hij hj hl)).2
    rw [closesBlock_iff.2 hmem] at this
    cases this
  · intro j hij hj l hl hstarts
    rw [← startsStatement_iff] at hstarts
    rcases Nat.lt_or_eq_of_le hj with hj | rfl
    · rw [(hinner l (hbetween hij hj hl)).1] at hstarts
      cases hstarts
    · rw [hclosing] at hl
      cases hl
      rw [hplain] at hstarts
      cases hstarts

/-- The last line of a statement is where its block ends, or the line that it starts on. -/
theorem isLastLine_lastLineOf (joinBlocks : Bool) (ls : List Line) (i : Nat) :
    IsLastLine joinBlocks ls i (lastLineOf joinBlocks ls i) := by
  unfold lastLineOf
  split
  · -- Only a line that opens a block, while blocks are joined, can end further down.
    rename_i hopens
    rw [Bool.and_eq_true] at hopens
    cases hrest : blockRest? (ls.drop (i + 1)) with
    | some rest => exact .inl ⟨hopens.1, endsBlock_of_blockRest? hopens.2 hrest⟩
    | none =>
      refine .inr ⟨rfl, ?_⟩
      rintro ⟨-, e', he'⟩
      have := he'.isSome_blockRest?
      rw [hrest] at this
      cases this
  · rename_i hopens
    refine .inr ⟨rfl, ?_⟩
    rintro ⟨rfl, e', he'⟩
    obtain ⟨l, hl, hl'⟩ := he'.opens
    rw [Option.mem_def.1 hl, Option.any_some, opensBlock_iff.2 hl'] at hopens
    exact hopens rfl

/-- What the last line of a statement is has one answer. -/
theorem isLastLine_iff : IsLastLine joinBlocks ls i e ↔ e = lastLineOf joinBlocks ls i := by
  refine ⟨fun h => ?_, fun h => h ▸ isLastLine_lastLineOf joinBlocks ls i⟩
  rcases h with ⟨hjoin, h⟩ | ⟨rfl, hno⟩
  · rcases isLastLine_lastLineOf joinBlocks ls i with ⟨-, h'⟩ | ⟨-, hno⟩
    · -- Of two lines that close the block the later one is not the first.
      have hnot {e e' : Nat} (h : EndsBlock ls i e) (h' : EndsBlock ls i e') : ¬ e < e' := by
        intro hlt
        obtain ⟨l, hl, hmem⟩ := h.closes
        exact h'.open_before e h.lt hlt l hl hmem
      exact Nat.le_antisymm (Nat.not_lt.1 (hnot h' h)) (Nat.not_lt.1 (hnot h h'))
    · exact absurd ⟨hjoin, e, h⟩ hno
  · rcases isLastLine_lastLineOf joinBlocks ls e with ⟨hjoin, h'⟩ | ⟨heq, -⟩
    · exact absurd ⟨hjoin, _, h'⟩ hno
    · exact heq.symm

/-! ## Statements of lines -/

/-- A line more in front moves the span by one. -/
theorem span_cons_succ (l : Line) (ls : List Line) (i e : Nat) :
    span (l :: ls) (i + 1) (e + 1) = span ls i e := by
  rw [span, span, List.drop_succ_cons, Nat.add_sub_add_right]

/-- So it moves the last line. -/
theorem lastLineOf_cons_succ (joinBlocks : Bool) (l : Line) (ls : List Line) (i : Nat) :
    lastLineOf joinBlocks (l :: ls) (i + 1) = lastLineOf joinBlocks ls i + 1 := by
  rw [lastLineOf, lastLineOf, List.getElem?_cons_succ, List.drop_succ_cons]
  split
  · exact Nat.add_right_comm i 1 _
  · rfl

/-- The lines of the statement that starts on the first line. -/
theorem span_zero_lastLineOf (joinBlocks : Bool) (l : Line) (ls : List Line) :
    span (l :: ls) 0 (lastLineOf joinBlocks (l :: ls) 0) =
      if joinBlocks && opensBlock l then l :: (blockRest? ls).getD [] else [l] := by
  rw [lastLineOf, List.getElem?_cons_zero, Option.any_some, List.drop_succ_cons, List.drop_zero]
  split
  · cases hrest : blockRest? ls with
    | none => rfl
    | some rest =>
      rw [Option.getD_some, span, List.drop_zero, Nat.zero_add, Nat.sub_zero, List.take_succ_cons,
        ← eq_take_of_blockRest? hrest]
  · rfl

/-- Each line that starts a statement gives one, which goes on to its last line. -/
theorem statementBlocks_eq_map (joinBlocks : Bool) (ls : List Line) :
    statementBlocks joinBlocks ls =
      (ls.findIdxs startsStatement).map fun i => span ls i (lastLineOf joinBlocks ls i) := by
  induction ls with
  | nil => rfl
  | cons l ls ih =>
    -- Below the first line the indices are those of the rest, each one further.
    have hbelow : (ls.findIdxs startsStatement 1).map
        (fun i => span (l :: ls) i (lastLineOf joinBlocks (l :: ls) i)) =
        statementBlocks joinBlocks ls := by
      rw [List.findIdxs_start, List.map_map, ih]
      refine List.map_congr_left fun i _ => ?_
      rw [Function.comp_apply, lastLineOf_cons_succ, span_cons_succ]
    rw [statementBlocks, List.findIdxs_cons]
    split
    · rw [List.map_cons, hbelow, span_zero_lastLineOf]
    · exact hbelow.symm

/-- A span is a part of the lines as it stands there. -/
theorem isInfix_span (ls : List Line) (i e : Nat) : span ls i e <:+: ls :=
  (List.take_prefix _ _).isInfix.trans (List.drop_suffix _ _).isInfix

/-- A statement ends before the next one starts. -/
theorem lt_of_lt_startingLine {j : Nat} (hj : j ∈ ls.findIdxs startsStatement) (hij : i < j) :
    lastLineOf joinBlocks ls i < j := by
  rcases isLastLine_lastLineOf joinBlocks ls i with ⟨-, hends⟩ | ⟨heq, -⟩
  · -- No statement starts on a line of the block, and one starts on line `j`.
    refine Nat.lt_of_not_le fun hle => ?_
    obtain ⟨hlength, hstarts⟩ := List.mem_findIdxs_iff_exists_getElem_pos.1 hj
    exact hends.plain j hij hle _ (List.getElem?_eq_getElem hlength)
      (startsStatement_iff.1 hstarts)
  · rwa [heq]

/-- The first line of a statement is the one it starts on. -/
theorem headD_span (hi : i ∈ ls.findIdxs startsStatement) :
    (span ls i (lastLineOf joinBlocks ls i)).headD [] = (span ls i i).flatten := by
  obtain ⟨hlength, -⟩ := List.mem_findIdxs_iff_exists_getElem_pos.1 hi
  have hle : i ≤ lastLineOf joinBlocks ls i := by
    rcases isLastLine_lastLineOf joinBlocks ls i with ⟨-, hends⟩ | ⟨heq, -⟩
    · exact Nat.le_of_lt hends.lt
    · exact Nat.le_of_eq heq.symm
  rw [span, span, List.drop_eq_getElem_cons hlength, Nat.succ_sub hle, Nat.succ_sub (Nat.le_refl i),
    Nat.sub_self, List.take_succ_cons, List.take_succ_cons, List.take_zero, List.headD_cons,
    List.flatten_singleton]

/-! ## Statements of texts -/

/-- Each line of a text that starts a statement gives one, in order. The statement goes on to its
last line, before the next one starts; its lines are found in it again; and the statements that are
read without joining blocks are the first lines of those that are read with it. -/
theorem statements_spans (joinBlocks : Bool) (text : List Char) :
    (∀ i e, IsLastLine joinBlocks (Text.lines text) i e ↔
      e = lastLineOf joinBlocks (Text.lines text) i) ∧
    statements joinBlocks text = (startingLines text).map (fun i =>
      (span (Text.lines text) i (lastLineOf joinBlocks (Text.lines text) i)).flatten) ∧
    ((startingLines text).Pairwise fun i j => lastLineOf joinBlocks (Text.lines text) i < j) ∧
    (∀ i e, Text.lines (span (Text.lines text) i e).flatten = span (Text.lines text) i e) ∧
    statements false text = (statements true text).map fun s => (Text.lines s).headD [] := by
  have hstatements (joinBlocks : Bool) : statements joinBlocks text =
      (startingLines text).map fun i =>
        (span (Text.lines text) i (lastLineOf joinBlocks (Text.lines text) i)).flatten := by
    rw [statements, statementBlocks_eq_map, List.map_map]
    rfl
  have hlines (i e : Nat) :
      Text.lines (span (Text.lines text) i e).flatten = span (Text.lines text) i e :=
    Text.lines_flatten_of_isInfix (isInfix_span _ i e)
  refine ⟨fun i e => isLastLine_iff, hstatements joinBlocks, ?_, hlines, ?_⟩
  · exact List.pairwise_findIdxs.imp_of_mem fun _ hj hij => lt_of_lt_startingLine hj hij
  · rw [hstatements true, hstatements false, List.map_map]
    refine List.map_congr_left fun i hi => ?_
    rw [Function.comp_apply, hlines, headD_span hi]
    rfl

/-! ## Texts that are put together -/

variable {after : List Line}

/-- A statement below ends the search for the rest of a block as the end of the text does. -/
theorem blockRest?_append_of_starts (hafter : ∀ l ∈ after.head?, startsStatement l = true)
    (ls : List Line) : blockRest? (ls ++ after) = blockRest? ls := by
  induction ls with
  | nil =>
    cases after with
    | nil => rfl
    | cons l after => exact if_pos (hafter l rfl)
  | cons l ls ih => rw [List.cons_append, blockRest?, blockRest?, ih]

/-- Lines that begin with a statement add their own statements, and change none before. -/
theorem statementBlocks_append_of_starts (hafter : ∀ l ∈ after.head?, startsStatement l = true)
    (joinBlocks : Bool) (ls : List Line) : statementBlocks joinBlocks (ls ++ after) =
      statementBlocks joinBlocks ls ++ statementBlocks joinBlocks after := by
  induction ls with
  | nil => rfl
  | cons l ls ih =>
    rw [List.cons_append, statementBlocks, statementBlocks, blockRest?_append_of_starts hafter, ih]
    split <;> rfl

/-- Where a text ends in a line feed and the next one starts with a statement, the statements are
those of the one and those of the other: no block goes on from the first text into the second. -/
theorem statements_append {before after : List Char}
    (hbefore : before = [] ∨ before.getLast? = some '\n') (hafter : statementWord <+: after)
    (joinBlocks : Bool) : statements joinBlocks (before ++ after) =
      statements joinBlocks before ++ statements joinBlocks after := by
  have hlines : Text.lines (before ++ after) = Text.lines before ++ Text.lines after := by
    rcases hbefore with rfl | hends
    · rfl
    · exact Text.lines_append_of_ends hends after
  have hstarts : ∀ l ∈ (Text.lines after).head?, startsStatement l = true := by
    obtain ⟨rest, rfl⟩ := hafter
    obtain ⟨more, ls, hfirst⟩ :=
      Text.exists_lines_append (by decide) isBreak_of_mem_statementWord rest
    rw [hfirst]
    rintro l ⟨⟩
    exact startsStatement_iff.2 (List.prefix_append _ _)
  unfold statements
  rw [hlines, statementBlocks_append_of_starts hstarts, List.map_append]

/-- A block that is not closed stays alone, though the statement behind it has a closing brace. -/
theorem statements_append_unclosed :
    ("import \x7b\n  a,\n".toList = [] ∨ "import \x7b\n  a,\n".toList.getLast? = some '\n') ∧
      statementWord <+: "import b \x7d from './b'\n".toList ∧
      statements true ("import \x7b\n  a,\n".toList ++ "import b \x7d from './b'\n".toList) =
        ["import \x7b\n".toList, "import b \x7d from './b'\n".toList] := by
  have hbefore : "import \x7b\n  a,\n".toList.getLast? = some '\n' := by decide
  have hafter : statementWord <+: "import b \x7d from './b'\n".toList := by decide
  refine ⟨.inr hbefore, hafter, ?_⟩
  rw [statements_append (.inr hbefore) hafter]
  decide

end ImportAtlas
