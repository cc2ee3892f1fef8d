import ImportAtlas.Proofs.Import.Layout

/-!
# Texts in another spelling

A source text may be written with other quotes, and with a carriage return before each line feed.
What it imports does not change. Two such texts are alike character by character; so are their
lines, which start, open and close the same statements, and the last words of their statements.

## Key results

- `Alike.lines`: texts that are alike have lines that are alike
- `Alike.statements`: the statements of alike texts are alike
- `Alike.locator_eq`: statements that are alike have the same locator
- `Respelling.alike`: a text is alike to another spelling of it
-/

namespace ImportAtlas

/-! ## Spellings -/

/-- What becomes of the quotes in a text. -/
inductive QuoteStyle where
  | kept
  | double
  | single
  deriving DecidableEq, Repr

/-- A character in a style of quotes. -/
def QuoteStyle.apply (style : QuoteStyle) (c : Char) : Char :=
  match style with
  | kept => c
  | double => if c = '\'' then '"' else c
  | single => if c = '"' then '\'' else c

/-- Another spelling of a text. -/
structure Respelling where
  /-- Whether each line feed becomes a carriage return and a line feed. -/
  pairs : Bool
  quotes : QuoteStyle
  deriving DecidableEq, Repr

namespace Respelling

/-- What becomes of a character. -/
def ofChar (r : Respelling) (c : Char) : List Char :=
  if c = '\n' ∧ r.pairs then ['\r', '\n'] else [r.quotes.apply c]

/-- A text in the spelling. -/
def apply (r : Respelling) (s : List Char) : List Char :=
  s.flatMap r.ofChar

/-- Where line feeds become pairs there are no carriage returns before. -/
def Fits (r : Respelling) (s : List Char) : Prop :=
  r.pairs = true → '\r' ∉ s

end Respelling

/-! ## Alike texts -/

/-- Texts that are alike: they differ in quotes, in carriage returns before line feeds, and in
quoted text that stands before a parenthesis, if it is part of a line and if a closing brace is in
both or in neither. If `isStrict` holds, a carriage return that is in both comes before a line feed
in both or in neither; only then do the texts break into lines alike. -/
inductive Alike (isStrict : Bool) : List Char → List Char → Prop
  | nil : Alike isStrict [] []
  | same {s t : List Char} (c : Char)
    (hc : isStrict = true → c = '\r' → (s.head? = some '\n' ↔ t.head? = some '\n'))
    (h : Alike isStrict s t) : Alike isStrict (c :: s) (c :: t)
  | quote {s t : List Char} {q q' : Char} (hq : isQuote q = true) (hq' : isQuote q' = true)
    (h : Alike isStrict s t) : Alike isStrict (q :: s) (q' :: t)
  | feed {s t : List Char} (h : Alike isStrict s t) : Alike isStrict ('\n' :: s) ('\r' :: '\n' :: t)
  | shown {s t u v : List Char} {q q' : Char} (hq : isQuote q = true) (hq' : isQuote q' = true)
    (hu : ∀ c ∈ u, Text.isBreak c = false) (hv : ∀ c ∈ v, Text.isBreak c = false)
    (hbrace : '\x7d' ∈ u ↔ '\x7d' ∈ v) (h : Alike isStrict s t) :
    Alike isStrict (q :: (u ++ ' ' :: '(' :: s)) (q' :: (v ++ ' ' :: '(' :: t))

/-- A quotation mark is no space. -/
theorem isBlank_of_isQuote {q : Char} (h : isQuote q = true) : Text.isBlank q = false := by
  simp only [isQuote, Bool.or_eq_true, beq_iff_eq] at h
  rcases h with rfl | rfl <;> decide

/-- Nor does it break a line. -/
theorem isBreak_of_isQuote {q : Char} (h : isQuote q = true) : Text.isBreak q = false := by
  simp only [isQuote, Bool.or_eq_true, beq_iff_eq] at h
  rcases h with rfl | rfl <;> decide

namespace Alike

variable {isStrict : Bool} {s t s' t' : List Char}

/-- A text is like itself. -/
theorem refl (s : List Char) : Alike isStrict s s := by
  induction s with
  | nil => exact .nil
  | cons c s ih => exact .same c (fun _ _ => Iff.rfl) ih

/-- Strictness can be given up. -/
theorem loose (h : Alike isStrict s t) : Alike false s t := by
  induction h with
  | nil => exact .nil
  | same c _ _ ih => exact .same c nofun ih
  | quote hq hq' _ ih => exact .quote hq hq' ih
  | feed _ ih => exact .feed ih
  | shown hq hq' hu hv hbrace _ ih => exact .shown hq hq' hu hv hbrace ih

/-- Nothing but the empty text is like the empty text. -/
theorem eq_nil_iff (h : Alike isStrict s t) : s = [] ↔ t = [] := by
  cases h <;> simp

/-- Texts that are alike stay so in front of others, if both or none of these start with a line
feed. -/
theorem append (h : Alike isStrict s t) (h' : Alike isStrict s' t')
    (hhead : isStrict = true → (s'.head? = some '\n' ↔ t'.head? = some '\n')) :
    Alike isStrict (s ++ s') (t ++ t') := by
  induction h with
  | nil => exact h'
  | @same s t c hc h ih =>
    refine .same c (fun hstrict hreturn => ?_) ih
    -- The character behind this one is the next of these texts, or the first of the others.
    have hnil := h.eq_nil_iff
    cases s with
    | nil =>
      rw [hnil.1 rfl]
      exact hhead hstrict
    | cons d s =>
      cases t with
      | nil => exact absurd (hnil.2 rfl) (List.cons_ne_nil d s)
      | cons d' t => exact hc hstrict hreturn
  | quote hq hq' _ ih => exact .quote hq hq' ih
  | feed _ ih => exact .feed ih
  | @shown s t u v q q' hq hq' hu hv hbrace _ ih =>
    have h := Alike.shown hq hq' hu hv hbrace ih
    simpa only [List.cons_append, List.append_assoc] using h

/-- Lines that are alike make up texts that are alike. -/
theorem flatten {ls ms : List (List Char)} (h : List.Forall₂ (Alike false) ls ms) :
    Alike false ls.flatten ms.flatten := by
  induction h with
  | nil => exact .nil
  | cons hl _ ih => exact hl.append ih nofun

/-! ## Lines -/

/-- Lists of lines that are alike begin alike and go on alike. -/
theorem headD_tail {ls ms : List (List Char)} (h : List.Forall₂ (Alike isStrict) ls ms) :
    Alike isStrict (ls.headD []) (ms.headD []) ∧
      List.Forall₂ (Alike isStrict) ls.tail ms.tail := by
  cases h with
  | nil => exact ⟨.nil, .nil⟩
  | cons hl hls => exact ⟨hl, hls⟩

/-- The lines of two texts that go on behind the same terminator, if it stands before a line feed
in both or in neither. -/
theorem lines_cons_of_isBreak {c : Char} (hc : Text.isBreak c = true)
    (hhead : c = '\r' → (s.head? = some '\n' ↔ t.head? = some '\n'))
    (h : List.Forall₂ (Alike true) (Text.lines s) (Text.lines t)) :
    List.Forall₂ (Alike true) (Text.lines (c :: s)) (Text.lines (c :: t)) := by
  by_cases hpair : c = '\r' ∧ s.head? = some '\n'
  · -- A pair in both texts is one terminator.
    obtain ⟨rfl, hfeed⟩ := hpair
    obtain ⟨s, rfl⟩ := List.head?_eq_some_iff.1 hfeed
    obtain ⟨t, rfl⟩ := List.head?_eq_some_iff.1 ((hhead rfl).1 hfeed)
    rw [Text.lines_cons_lineFeed, Text.lines_cons_lineFeed, List.forall₂_cons] at h
    exact .cons (refl _) h.2
  · have hline {u : List Char} (hu : ¬ (c = '\r' ∧ u.head? = some '\n')) :
        Text.lines (c :: u) = [c] :: Text.lines u := by
      refine Text.lines_cons_of_isBreak hc fun v hreturn hfeed => hu ⟨hreturn, ?_⟩
      rw [hfeed]
      rfl
    rw [hline hpair, hline fun hpair' => hpair ⟨hpair'.1, (hhead hpair'.1).2 hpair'.2⟩]
    exact .cons (refl _) h

/-- Quoted text before a parenthesis leaves the line whole. -/
theorem lines_shown {q : Char} {u : List Char} (hq : isQuote q = true)
    (hu : ∀ c ∈ u, Text.isBreak c = false) (s : List Char) :
    Text.lines (q :: (u ++ ' ' :: '(' :: s)) =
      (q :: (u ++ ' ' :: '(' :: (Text.lines s).headD [])) :: (Text.lines s).tail := by
  -- The first break of the line comes behind the bracket, so the quote begins one line.
  have hunbroken : ∀ c ∈ q :: (u ++ [' ', '(']), Text.isBreak c = false := by
    simp only [List.mem_cons, List.mem_append, List.not_mem_nil, or_false]
    rintro c (rfl | hc | rfl | rfl)
    · exact isBreak_of_isQuote hq
    · exact hu c hc
    · rfl
    · rfl
  have hlines := Text.lines_append_of_unbroken (List.cons_ne_nil q _) hunbroken s
  simpa only [List.cons_append, List.append_assoc, List.nil_append] using hlines

/-- The lines of texts that are alike are alike, one by one. -/
theorem lines (h : Alike true s t) :
    List.Forall₂ (Alike true) (Text.lines s) (Text.lines t) := by
  induction h with
  | nil => exact .nil
  | @same s t c hc h ih =>
    -- A break starts a new line in both texts; anything else goes on with the first line of both.
    cases hbreak : Text.isBreak c with
    | false =>
      obtain ⟨hfirst, hrest⟩ := headD_tail ih
      rw [Text.lines_cons_of_unbroken hbreak, Text.lines_cons_of_unbroken hbreak]
      refine .cons (.same c (fun _ hreturn => ?_) hfirst) hrest
      rw [hreturn] at hbreak
      cases hbreak
    | true => exact lines_cons_of_isBreak hbreak (hc rfl) ih
  | @quote s t q q' hq hq' h ih =>
    obtain ⟨hfirst, hrest⟩ := headD_tail ih
    rw [Text.lines_cons_of_unbroken (isBreak_of_isQuote hq),
      Text.lines_cons_of_unbroken (isBreak_of_isQuote hq')]
    exact .cons (.quote hq hq' hfirst) hrest
  | feed h ih =>
    rw [Text.lines_cons_lineFeed, Text.lines_cons_pair]
    exact .cons (.feed .nil) ih
  | @shown s t u v q q' hq hq' hu hv hbrace h ih =>
    obtain ⟨hfirst, hrest⟩ := headD_tail ih
    rw [lines_shown hq hu, lines_shown hq' hv]
    exact .cons (.shown hq hq' hu hv hbrace hfirst) hrest

/-- Texts that are alike start with the same word, if no quote and no terminator is in it. -/
theorem isPrefix_iff (h : Alike isStrict s t) {w : List Char}
    (hw : ∀ c ∈ w, isQuote c = false ∧ Text.isBreak c = false) : w <+: s ↔ w <+: t := by
  induction h generalizing w with
  | nil => rfl
  | same c _ _ ih =>
    cases w with
    | nil => simp
    | cons d w =>
      rw [List.forall_mem_cons] at hw
      rw [List.cons_prefix_cons, List.cons_prefix_cons, ih hw.2]
  | quote hq hq' _ _ | shown hq hq' _ _ _ _ _ =>
    cases w with
    | nil => simp
    | cons d w =>
      have hd := (hw d List.mem_cons_self).1
      -- The quotes may differ, but the word starts with neither.
      have hne {q : Char} (hq : isQuote q = true) : d ≠ q := by
        rintro rfl
        rw [hd] at hq
        cases hq
      simp [List.cons_prefix_cons, hne hq, hne hq']
  -- The two texts go on with different breaks, but the word starts with neither.
  | feed _ _ =>
    cases w with
    | nil => simp
    | cons d w =>
      have hd := (hw d List.mem_cons_self).2
      have hne {c : Char} (hc : Text.isBreak c = true) : d ≠ c := by
        rintro rfl
        rw [hd] at hc
        cases hc
      simp [List.cons_prefix_cons, hne (c := '\n') rfl, hne (c := '\r') rfl]

/-- The word that starts a statement has no character that may be respelled. -/
theorem startsStatement_eq (h : Alike isStrict s t) : startsStatement s = startsStatement t := by
  rw [Bool.eq_iff_iff, startsStatement_iff, startsStatement_iff]
  have hword : statementWord.all (fun c => !isQuote c) = true := by
    rw [statementWord_eq]
    decide
  refine h.isPrefix_iff fun c hc => ⟨?_, isBreak_of_mem_statementWord c hc⟩
  simpa using List.all_eq_true.1 hword c hc

/-- A closing brace is not respelled. -/
theorem mem_brace_iff (h : Alike isStrict s t) : '\x7d' ∈ s ↔ '\x7d' ∈ t := by
  -- A brace is no quote, so no exchange of quotes touches one.
  have hne {q : Char} (hq : isQuote q = true) : '\x7d' ≠ q := by
    rintro rfl
    cases hq
  induction h with
  | nil => rfl
  | same c _ _ ih =>
    rw [List.mem_cons, List.mem_cons]
    exact or_congr_right ih
  | quote hq hq' _ ih => simp [hne hq, hne hq', ih]
  | feed _ ih => simp [ih]
  | shown hq hq' _ _ hbrace _ ih => simp [hne hq, hne hq', hbrace, ih]

/-- So a block is closed by a line just if it is by the other spelling. -/
theorem closesBlock_eq (h : Alike isStrict s t) : closesBlock s = closesBlock t := by
  rw [Bool.eq_iff_iff, closesBlock, closesBlock, List.contains_iff_mem, List.contains_iff_mem]
  exact h.mem_brace_iff

/-! ## Blocks -/

/-- The terminators that a line opening a block ends in. -/
def IsTerminator (s : List Char) : Prop :=
  s = ['\n'] ∨ s = ['\r', '\n']

/-- A block is opened by a brace before the end of its line. -/
theorem opensBlock_cons_iff {c : Char} {s : List Char} : opensBlock (c :: s) = true ↔
    c = '\x7b' ∧ IsTerminator s ∨ opensBlock s = true := by
  have hfeed : "\x7b\n".toList = ['\x7b', '\n'] := rfl
  have hpair : "\x7b\r\n".toList = ['\x7b', '\r', '\n'] := rfl
  simp only [opensBlock, hfeed, hpair, Bool.or_eq_true, List.isSuffixOf_iff_suffix,
    List.suffix_cons_iff, List.cons.injEq, IsTerminator, eq_comm (a := '\x7b'),
    eq_comm (b := s)]
  tauto

/-- Any other character opens none. -/
theorem opensBlock_cons_of_ne {c : Char} (hc : c ≠ '\x7b') (s : List Char) :
    opensBlock (c :: s) = opensBlock s := by
  rw [Bool.eq_iff_iff, opensBlock_cons_iff]
  exact or_iff_right fun h => hc h.1

/-- A parenthesis behind a space keeps what is before it from opening a block. -/
theorem opensBlock_append_parenthesis (u s : List Char) :
    opensBlock (u ++ ' ' :: '(' :: s) = opensBlock s := by
  induction u with
  | nil =>
    rw [List.nil_append, opensBlock_cons_of_ne (by decide), opensBlock_cons_of_ne (by decide)]
  | cons c u ih =>
    rw [List.cons_append, Bool.eq_iff_iff, opensBlock_cons_iff, ih]
    refine or_iff_right ?_
    rintro ⟨-, hterminator⟩
    have hspace : ' ' ∈ u ++ ' ' :: '(' :: s := by simp
    -- With a space behind the opener this is not the end of a line.
    rcases hterminator with h | h <;> simp [h] at hspace

/-- A line feed alone is alike to itself, if the other text starts with a line feed too. -/
theorem eq_lineFeed_iff (h : Alike isStrict s t)
    (hhead : s.head? = some '\n' ↔ t.head? = some '\n') : s = ['\n'] ↔ t = ['\n'] := by
  have hne {q : Char} (hq : isQuote q = true) : q ≠ '\n' := by
    rintro rfl
    cases hq
  -- A pair of quotes is no line feed, whichever of them it starts with.
  cases h with
  | nil => rfl
  | same c _ h => rw [List.cons_eq_cons, List.cons_eq_cons, h.eq_nil_iff]
  | quote hq hq' _ => simp [hne hq, hne hq']
  | feed _ => simp at hhead
  | shown hq hq' _ _ _ _ => simp [hne hq, hne hq']

/-- The end of a line is one in both spellings. -/
theorem isTerminator_iff (h : Alike true s t) : IsTerminator s ↔ IsTerminator t := by
  -- No quote ends a statement, so respelled quotes never turn into an end.
  have hno {q : Char} (hq : isQuote q = true) (s : List Char) : ¬ IsTerminator (q :: s) := by
    rintro (heq | heq)
    · rw [(List.cons.inj heq).1] at hq
      cases hq
    · rw [(List.cons.inj heq).1] at hq
      cases hq
  cases h with
  | nil => rfl
  | same c hc h =>
    simp only [IsTerminator, List.cons_eq_cons, h.eq_nil_iff]
    refine or_congr_right (and_congr_right fun hreturn => ?_)
    exact h.eq_lineFeed_iff (hc rfl hreturn)
  | quote hq hq' _ => exact iff_of_false (hno hq _) (hno hq' _)
  | feed h => simp [IsTerminator, h.eq_nil_iff]
  | shown hq hq' _ _ _ _ => exact iff_of_false (hno hq _) (hno hq' _)

/-- So a block is opened by a line just if it is by the other spelling. -/
theorem opensBlock_eq (h : Alike true s t) : opensBlock s = opensBlock t := by
  have hne {q : Char} (hq : isQuote q = true) : q ≠ '\x7b' := by
    rintro rfl
    cases hq
  -- No quote is a brace, so a respelled quote neither opens a block nor hides what does.
  induction h with
  | nil => rfl
  | same c _ h ih =>
    rw [Bool.eq_iff_iff, opensBlock_cons_iff, opensBlock_cons_iff, h.isTerminator_iff, ih]
  | quote hq hq' _ ih =>
    rw [opensBlock_cons_of_ne (hne hq), opensBlock_cons_of_ne (hne hq'), ih]
  | feed _ ih =>
    rw [opensBlock_cons_of_ne (by decide), opensBlock_cons_of_ne (by decide),
      opensBlock_cons_of_ne (by decide), ih]
  | shown hq hq' _ _ _ _ ih =>
    rw [opensBlock_cons_of_ne (hne hq), opensBlock_cons_of_ne (hne hq'),
      opensBlock_append_parenthesis, opensBlock_append_parenthesis, ih]

/-- What follows a block is the same lines, respelled. -/
theorem blockRest? {ls ms : List Line} (h : List.Forall₂ (Alike true) ls ms) :
    Option.Rel (List.Forall₂ (Alike true)) (blockRest? ls) (blockRest? ms) := by
  induction h with
  | nil => exact .none
  | @cons l m ls ms hl _ ih =>
    rw [ImportAtlas.blockRest?, ImportAtlas.blockRest?, hl.startsStatement_eq, hl.closesBlock_eq]
    generalize ImportAtlas.blockRest? ls = rest, ImportAtlas.blockRest? ms = rest' at ih ⊢
    -- A line that starts a statement or closes the block does so in both spellings.
    split
    · exact .none
    · split
      · exact .some (.cons hl .nil)
      · cases ih with
        | none => exact .none
        | some ih => exact .some (.cons hl ih)

/-- The statements are the same blocks of lines, respelled. -/
theorem statementBlocks (joinBlocks : Bool) {ls ms : List Line}
    (h : List.Forall₂ (Alike true) ls ms) :
    List.Forall₂ (List.Forall₂ (Alike true)) (statementBlocks joinBlocks ls)
      (statementBlocks joinBlocks ms) := by
  induction h with
  | nil => exact .nil
  | @cons l m ls ms hl hls ih =>
    have hrest := blockRest? hls
    rw [ImportAtlas.statementBlocks, ImportAtlas.statementBlocks, hl.startsStatement_eq,
      hl.opensBlock_eq]
    -- From here on it does not matter how the rest of the block was found.
    generalize ImportAtlas.blockRest? ls = rest, ImportAtlas.blockRest? ms = rest' at hrest ⊢
    split
    · refine .cons ?_ ih
      split
      · refine .cons hl ?_
        cases hrest with
        | none => exact .nil
        | some hrest => exact hrest
      · exact .cons hl .nil
    · exact ih

/-- The statements of texts that are alike are alike, one by one. -/
theorem statements (joinBlocks : Bool) (h : Alike true s t) :
    List.Forall₂ (Alike false) (statements joinBlocks s) (statements joinBlocks t) := by
  refine List.rel_map (fun ls ms hls => ?_) (statementBlocks joinBlocks h.lines)
  exact flatten (hls.imp fun _ _ => loose)

end Alike

/-! ## Last words -/

/-- Two lists of words allow for the same locator: both have none, one, or more words, and nothing
but quotes is different in the last ones. -/
structure SameEnd (ws vs : List (List Char)) : Prop where
  nil_iff : ws = [] ↔ vs = []
  two_le_iff : 2 ≤ ws.length ↔ 2 ≤ vs.length
  last_eq : ws.getLast?.map unquote = vs.getLast?.map unquote

/-- A locator is read off the number of words and the last word. -/
theorem locator_eq (s : List Char) : locator s =
    if 2 ≤ (Text.words s).length then
      match (Text.words s).getLast?.map unquote with
      | some name => if name = [] then .error .empty else .ok name
      | none => .error .missing
    else .error .missing := by
  unfold locator
  have hwords : Text.words s = (Text.words s).reverse.reverse := (List.reverse_reverse _).symm
  rw [hwords, List.reverse_reverse]
  -- The words are read from the end, where the locator stands.
  match (Text.words s).reverse with
  | [] => rfl
  | [_] => rfl
  | last :: before :: rest =>
    rw [if_pos (by simp), List.getLast?_reverse]
    rfl

/-- Words that end alike, but for quotation marks, give one locator. -/
theorem SameEnd.locator_eq {s t : List Char} (h : SameEnd (Text.words s) (Text.words t)) :
    locator s = locator t := by
  rw [ImportAtlas.locator_eq, ImportAtlas.locator_eq, h.last_eq]
  by_cases htwo : 2 ≤ (Text.words s).length
  · rw [if_pos htwo, if_pos (h.two_le_iff.1 htwo)]
  · rw [if_neg htwo, if_neg (mt h.two_le_iff.2 htwo)]

/-- Characters that are the same in a locator. -/
def SameBare (c d : Char) : Prop :=
  c = d ∨ isQuote c = true ∧ isQuote d = true

/-- Quotation marks are dropped one character at a time. -/
theorem unquote_cons_cons (c d : Char) (w : List Char) :
    unquote (c :: d :: w) = [c].filter (fun c => !isQuote c) ++ unquote (d :: w) := by
  have hdrop : dropSemicolon (c :: d :: w) = c :: dropSemicolon (d :: w) := by
    unfold dropSemicolon
    rw [List.getLast?_cons_cons, List.dropLast_cons_cons]
    split <;> rfl
  rw [unquote, hdrop, ← List.singleton_append, List.filter_append, unquote]

/-- Without quotation marks a character and its respelling leave the same. -/
theorem SameBare.filter_eq {c d : Char} (h : SameBare c d) :
    [c].filter (fun c => !isQuote c) = [d].filter (fun c => !isQuote c) := by
  rcases h with rfl | ⟨hc, hd⟩
  · rfl
  · simp [hc, hd]

/-- So do the words that they make up alone. -/
theorem SameBare.unquote_eq {c d : Char} (h : SameBare c d) : unquote [c] = unquote [d] := by
  have hdrop {q : Char} (hq : isQuote q = true) : unquote [q] = [] := by
    simp only [isQuote, Bool.or_eq_true, beq_iff_eq] at hq
    rcases hq with rfl | rfl <;> rfl
  rcases h with rfl | ⟨hc, hd⟩
  · rfl
  · rw [hdrop hc, hdrop hd]

namespace SameEnd

variable {w v : List Char} {ws vs : List (List Char)}

/-- A word more in front, the same but for quotation marks, keeps the ends alike. -/
theorem cons (h : SameEnd ws vs) (hword : unquote w = unquote v) :
    SameEnd (w :: ws) (v :: vs) := by
  have hnil := h.nil_iff
  refine ⟨by simp, ?_, ?_⟩
  · rw [List.length_cons, List.length_cons, Nat.succ_le_succ_iff, Nat.succ_le_succ_iff,
      Nat.succ_le_iff, Nat.succ_le_iff, List.length_pos_iff, List.length_pos_iff, ne_eq, ne_eq,
      hnil]
  · -- The last word is the first one only if there is no other.
    cases ws with
    | nil =>
      rw [hnil.1 rfl]
      exact congrArg some hword
    | cons w' ws =>
      cases vs with
      | nil => exact absurd (hnil.2 rfl) (List.cons_ne_nil w' ws)
      | cons v' vs => simpa only [List.getLast?_cons_cons] using h.last_eq

/-- A character more at the front of the first words. -/
theorem longer {c d : Char} (h : SameEnd (w :: ws) (v :: vs)) (hchar : SameBare c d) (hw : w ≠ [])
    (hv : v ≠ []) : SameEnd ((c :: w) :: ws) ((d :: v) :: vs) := by
  refine ⟨by simp, by simpa using h.two_le_iff, ?_⟩
  have htwo := h.two_le_iff
  have hlast := h.last_eq
  obtain ⟨a, w, rfl⟩ := List.exists_cons_of_ne_nil hw
  obtain ⟨b, v, rfl⟩ := List.exists_cons_of_ne_nil hv
  -- Only the last word counts; a character more in front changes it if it is the only one.
  cases ws with
  | nil =>
    obtain rfl : vs = [] := by simpa using htwo
    have hword : unquote (a :: w) = unquote (b :: v) := by simpa using hlast
    simp only [List.getLast?_singleton, Option.map_some, unquote_cons_cons, hword,
      hchar.filter_eq]
  | cons w' ws =>
    cases vs with
    | nil => simp at htwo
    | cons v' vs => simpa only [List.getLast?_cons_cons] using hlast

/-- Words before words do not count, if there are some. -/
theorem append {front front' : List (List Char)} (h : SameEnd ws vs) (hne : ws ≠ [])
    (hfront : front ≠ []) (hfront' : front' ≠ []) : SameEnd (front ++ ws) (front' ++ vs) := by
  have hne' : vs ≠ [] := mt h.nil_iff.2 hne
  have htwo {front ws : List (List Char)} (hfront : front ≠ []) (hne : ws ≠ []) :
      2 ≤ (front ++ ws).length := by
    have hpos := List.length_pos_iff.2 hfront
    have hpos' := List.length_pos_iff.2 hne
    rw [List.length_append]
    omega
  refine ⟨by simp [hne, hne'], iff_of_true (htwo hfront hne) (htwo hfront' hne'), ?_⟩
  rw [List.getLast?_append_of_ne_nil _ hne, List.getLast?_append_of_ne_nil _ hne', h.last_eq]

/-- A character more at the front of a text. -/
theorem words_cons {c d : Char} {s t : List Char} (h : SameEnd (Text.words s) (Text.words t))
    (hstart : Text.startsWord s = Text.startsWord t) (hchar : SameBare c d)
    (hc : Text.isBlank c = false) (hd : Text.isBlank d = false) :
    SameEnd (Text.words (c :: s)) (Text.words (d :: t)) := by
  -- The character is a word of its own or the first one of the next word, in both texts.
  cases hs : Text.startsWord s with
  | false =>
    rw [Text.words_cons_of_not_startsWord hc hs,
      Text.words_cons_of_not_startsWord hd (hstart ▸ hs)]
    exact h.cons hchar.unquote_eq
  | true =>
    obtain ⟨w, ws, hw, hwords, hmore⟩ := Text.words_cons_of_startsWord hc hs
    obtain ⟨v, vs, hv, hwords', hmore'⟩ := Text.words_cons_of_startsWord hd (hstart ▸ hs)
    rw [hwords, hwords'] at h
    rw [hmore, hmore']
    exact h.longer hchar hw hv

end SameEnd

namespace Alike

variable {isStrict : Bool} {s t : List Char}

/-- Words start at the same places in both spellings. -/
theorem startsWord_eq (h : Alike isStrict s t) : Text.startsWord s = Text.startsWord t := by
  cases h with
  | quote hq hq' _ | shown hq hq' _ _ _ _ =>
    simp [Text.startsWord, isBlank_of_isQuote hq, isBlank_of_isQuote hq']
  | _ => rfl

/-- The words of a text end as those of the other spelling do. -/
theorem sameEnd (h : Alike isStrict s t) : SameEnd (Text.words s) (Text.words t) := by
  induction h with
  | nil => exact ⟨Iff.rfl, Iff.rfl, rfl⟩
  | same c _ h ih =>
    cases hc : Text.isBlank c with
    | true => rwa [Text.words_cons_of_isBlank hc, Text.words_cons_of_isBlank hc]
    | false => exact ih.words_cons h.startsWord_eq (.inl rfl) hc hc
  | quote hq hq' h ih =>
    exact ih.words_cons h.startsWord_eq (.inr ⟨hq, hq'⟩) (isBlank_of_isQuote hq)
      (isBlank_of_isQuote hq')
  | feed _ ih =>
    rwa [Text.words_cons_of_isBlank rfl, Text.words_cons_of_isBlank rfl,
      Text.words_cons_of_isBlank rfl]
  | @shown s t u v q q' hq hq' hu hv _ h ih =>
    -- What is behind the parenthesis ends both texts, and there are words before it.
    have hrest : SameEnd (Text.words ('(' :: s)) (Text.words ('(' :: t)) :=
      ih.words_cons h.startsWord_eq (.inl rfl) (by decide) (by decide)
    rw [← List.cons_append, ← List.cons_append, Text.words_append_cons (by decide),
      Text.words_append_cons (by decide)]
    exact hrest.append (Text.words_cons_ne_nil (by decide) s)
      (Text.words_cons_ne_nil (isBlank_of_isQuote hq) u)
      (Text.words_cons_ne_nil (isBlank_of_isQuote hq') v)

/-- Statements that are alike have the same locator, or none for the same reason. -/
theorem locator_eq (h : Alike isStrict s t) : locator s = locator t :=
  h.sameEnd.locator_eq

/-- Texts that are alike have the same locators. -/
theorem map_locator_eq (h : Alike true s t) (joinBlocks : Bool) :
    (ImportAtlas.statements joinBlocks s).map locator =
      (ImportAtlas.statements joinBlocks t).map locator := by
  have hsame := (statements joinBlocks h).imp fun _ _ => locator_eq
  exact List.forall₂_eq_eq_eq ▸ List.forall₂_map_left_iff.2 (List.forall₂_map_right_iff.2 hsame)

end Alike

/-! ## Other spellings -/

/-- A character stays the same in a style of quotes, or is a quote and becomes one. -/
theorem QuoteStyle.apply_cases (style : QuoteStyle) (c : Char) :
    style.apply c = c ∨ isQuote c = true ∧ isQuote (style.apply c) = true := by
  -- A style changes the other quote into its own and leaves any other character.
  cases style with
  | kept => exact .inl rfl
  | double =>
    by_cases hc : c = '\''
    · subst hc
      exact .inr ⟨rfl, rfl⟩
    · exact .inl (if_neg hc)
  | single =>
    by_cases hc : c = '"'
    · subst hc
      exact .inr ⟨rfl, rfl⟩
    · exact .inl (if_neg hc)

namespace Respelling

variable {r : Respelling} {s : List Char}

theorem apply_cons (r : Respelling) (c : Char) (s : List Char) :
    r.apply (c :: s) = r.ofChar c ++ r.apply s := rfl

/-- Where line feeds stay, a text starts with one if it does so in the other spelling. -/
theorem head?_apply (hpairs : r.pairs = false) (s : List Char) :
    s.head? = some '\n' ↔ (r.apply s).head? = some '\n' := by
  cases s with
  | nil => rfl
  | cons c s =>
    rw [apply_cons, ofChar, hpairs, if_neg (by simp), List.singleton_append, List.head?_cons,
      List.head?_cons]
    -- Neither quote is a line feed, so the exchange does not matter here.
    rcases r.quotes.apply_cases c with hc | ⟨hc, hc'⟩
    · rw [hc]
    · have hne {q : Char} (hq : isQuote q = true) : q ≠ '\n' := by
        rintro rfl
        cases hq
      simp [hne hc, hne hc']

/-- A text is alike to another spelling of it. -/
theorem alike (h : r.Fits s) : Alike true s (r.apply s) := by
  induction s with
  | nil => exact .nil
  | cons c s ih =>
    have hs : r.Fits s := fun hpairs hmem => h hpairs (List.mem_cons_of_mem c hmem)
    rw [apply_cons, ofChar]
    split
    · rename_i hfeed
      rw [hfeed.1]
      exact .feed (ih hs)
    · rw [List.singleton_append]
      rcases r.quotes.apply_cases c with hc | ⟨hc, hc'⟩
      · rw [hc]
        refine .same c (fun _ hreturn => head?_apply ?_ s) (ih hs)
        -- There is a carriage return, so line feeds stay.
        refine eq_false_of_ne_true fun hpairs => h hpairs ?_
        rw [hreturn]
        exact List.mem_cons_self
      · exact .quote hc hc' (ih hs)

end Respelling

end ImportAtlas
