import ImportAtlas.Dot.Diagram

/-!
# A reader of the DOT language

A text is read twice over: its characters make up tokens, and its tokens make up statements. Both
times a machine writes while it reads. Where every part of a text leads the machine back to where it
was, the parts can be read one by one, and what they give stands in the same order.

Between double quotes a backslash is an escape before a double quote and before a backslash, and a
character like any other everywhere else.

## Key results

- `feed_append`: what is fed in two parts is written in two parts
- `feed_escaped`: quotes end where they were closed, whatever stands between them
- `reads_dotQuoted`, `reads_name_append`: the tokens of a quoted text and of a name
- `feed_attributeTokens`, `reads_attributes`: a list of attributes is read whole
- `Says.append`, `says_flatMap`: the statements of a text are those of its parts
-/

namespace ImportAtlas

/-! ## Machines -/

section Machine

variable {σ α β : Type} {step : σ → α → Option (List β × σ)} {s t u : σ}

/-- Feeds a machine from left to right. At each step it writes something and goes on, or refuses. -/
def feed (step : σ → α → Option (List β × σ)) (s : σ) : List α → Option (List β × σ)
  | [] => some ([], s)
  | a :: as =>
    (step s a).bind fun front => (feed step front.2 as).map fun rest => (front.1 ++ rest.1, rest.2)

/-- What is read of a character comes before what is read of those behind it. -/
theorem feed_cons {a : α} {as : List α} {front rest : List β} (ha : step s a = some (front, t))
    (has : feed step t as = some (rest, u)) :
    feed step s (a :: as) = some (front ++ rest, u) := by
  simp only [feed, ha, Option.bind_some, has, Option.map_some]

/-- What is fed in two parts is written in two parts. -/
theorem feed_append {as bs : List α} {front rest : List β}
    (has : feed step s as = some (front, t)) (hbs : feed step t bs = some (rest, u)) :
    feed step s (as ++ bs) = some (front ++ rest, u) := by
  induction as generalizing s front with
  | nil =>
    obtain ⟨rfl, rfl⟩ : front = [] ∧ t = s := by simpa [feed, eq_comm] using has
    exact hbs
  -- The first step splits off what it writes, and the rest is fed from the state it leaves.
  | cons a as ih =>
    rw [feed, Option.bind_eq_some_iff] at has
    obtain ⟨⟨written, s'⟩, hstep, has⟩ := has
    obtain ⟨⟨front', t'⟩, hrest, heq⟩ := Option.map_eq_some_iff.1 has
    obtain ⟨rfl, rfl⟩ := Prod.mk.inj heq
    rw [List.append_assoc]
    exact feed_cons hstep (ih hrest)

end Machine

/-! ## Tokens -/

/-- The parts that a text consists of, white space apart. -/
inductive DotToken where
  | name (text : String)
  | quoted (text : String)
  | arrow
  | mark (c : Char)
  deriving DecidableEq, Repr

/-- Where a reader of characters stands, with what it has read of a token. -/
inductive DotMode where
  | between
  | name (read : List Char)
  | quoted (read : List Char)
  /-- Between quotes, behind a backslash. -/
  | escaped (read : List Char)
  deriving DecidableEq, Repr

/-- A mark is a token of its own. -/
def isDotMark (c : Char) : Bool :=
  ['\x7b', '\x7d', '[', ']', '=', ',', ';'].contains c

/-- A name goes on up to a quote, a mark or white space. -/
def isDotNameChar (c : Char) : Bool :=
  c != '"' && !isDotMark c && !c.isWhitespace

/-- The token of a run of characters that a name can have. -/
def DotToken.ofName (w : List Char) : DotToken :=
  if w = ['-', '>'] then arrow else name (String.ofList w)

namespace DotMode

/-- What a character does between two tokens. -/
def start (c : Char) : List DotToken × DotMode :=
  if c = '"' then ([], quoted [])
  else if isDotMark c then ([.mark c], between)
  else if c.isWhitespace then ([], between)
  else ([], name [c])

/-- What a character does. -/
def read : DotMode → Char → Option (List DotToken × DotMode)
  | between, c => some (start c)
  | name w, c =>
    if isDotNameChar c then some ([], name (w ++ [c]))
    else some (.ofName w :: (start c).1, (start c).2)
  | quoted w, c =>
    if c = '"' then some ([.quoted (String.ofList w)], between)
    else if c = '\\' then some ([], escaped w)
    else some ([], quoted (w ++ [c]))
  | escaped w, c =>
    if c = '"' ∨ c = '\\' then some ([], quoted (w ++ [c]))
    else some ([], quoted (w ++ ['\\', c]))

end DotMode

/-- The tokens of a text that does not break off within one. -/
def dotTokens (text : String) : Option (List DotToken) :=
  match feed DotMode.read .between text.toList with
  | some (tokens, .between) => some tokens
  | _ => none

/-! ## Statements -/

/-- A statement of a diagram. -/
inductive DotStatement where
  /-- An attribute of the diagram itself. -/
  | setting (name value : String)
  /-- Attributes of everything of one kind. -/
  | defaults (kind : String) (attributes : List (String × String))
  | node (name : String) (attributes : List (String × String))
  | edge (source target : String)
  deriving DecidableEq, Repr

/-- Where a reader of tokens stands, with what it has read of a statement. -/
inductive DotPlace where
  | outside
  | headed (head : String)
  /-- Behind the equals sign of a setting. -/
  | valued (name : String)
  /-- Behind the arrow of an edge. -/
  | linked (source : String)
  /-- Between the brackets of a list of attributes. -/
  | within (head : String) (attributes : List (String × String))
  | keyed (head : String) (attributes : List (String × String)) (key : String)
  /-- Behind the equals sign of an attribute. -/
  | assigned (head : String) (attributes : List (String × String)) (key : String)
  /-- Behind the brace that ends the diagram. -/
  | closed
  deriving DecidableEq, Repr

/-- The words that stand for everything of a kind, where a node would be named. -/
def dotKinds : List String :=
  ["graph", "node", "edge"]

/-- What a head with a list of attributes says. -/
def DotStatement.ofAttributes (head : String) (attributes : List (String × String)) :
    DotStatement :=
  if head ∈ dotKinds then defaults head attributes else node head attributes

/-- What a token does. -/
def DotPlace.read : DotPlace → DotToken → Option (List DotStatement × DotPlace)
  | outside, .mark ';' => some ([], outside)
  | outside, .mark '\x7d' => some ([], closed)
  | outside, .name s | outside, .quoted s => some ([], headed s)
  | headed s, .mark ';' => some ([.node s []], outside)
  | headed s, .mark '=' => some ([], valued s)
  | headed s, .mark '[' => some ([], within s [])
  | headed s, .arrow => some ([], linked s)
  | valued s, .name v | valued s, .quoted v => some ([.setting s v], outside)
  | linked s, .name t | linked s, .quoted t => some ([.edge s t], outside)
  | within s as, .mark ']' => some ([.ofAttributes s as], outside)
  | within s as, .mark ',' => some ([], within s as)
  | within s as, .name k | within s as, .quoted k => some ([], keyed s as k)
  | keyed s as k, .mark '=' => some ([], assigned s as k)
  | assigned s as k, .name v | assigned s as k, .quoted v => some ([], within s (as ++ [(k, v)]))
  | _, _ => none

/-- A strict directed graph, as it is read. -/
structure DotContent where
  title : String
  statements : List DotStatement
  deriving DecidableEq, Repr

/-- What the tokens of a strict directed graph say. -/
def dotContent : List DotToken → Option DotContent
  | .name "strict" :: .name "digraph" :: .name title :: .mark '\x7b' :: rest =>
    match feed DotPlace.read .outside rest with
    | some (statements, .closed) => some ⟨title, statements⟩
    | _ => none
  | _ => none

/-- Reads a text that describes a strict directed graph. -/
def readDot (text : String) : Option DotContent :=
  (dotTokens text).bind dotContent

/-! ## Characters -/

/-- A text that is read as these tokens, with nothing left open. -/
def Reads (text : List Char) (tokens : List DotToken) : Prop :=
  feed DotMode.read .between text = some (tokens, .between)

/-- Texts that are read as tokens one by one are read so together. -/
theorem Reads.append {s s' : List Char} {ts ts' : List DotToken} (h : Reads s ts)
    (h' : Reads s' ts') : Reads (s ++ s') (ts ++ ts') :=
  feed_append h h'

/-- A text that can be read has its tokens. -/
theorem Reads.dotTokens {text : String} {tokens : List DotToken} (h : Reads text.toList tokens) :
    dotTokens text = some tokens := by
  unfold Reads at h
  rw [ImportAtlas.dotTokens, h]

/-- What stands for a character between quotes stands for it alone. -/
theorem feed_escapedChar (c : Char) (w : List Char) :
    feed DotMode.read (.quoted w) (if c = '"' ∨ c = '\\' then ['\\', c] else [c]) =
      some ([], .quoted (w ++ [c])) := by
  -- Only a quote and a backslash are escaped, and the reader takes either after a backslash.
  by_cases hc : c = '"' ∨ c = '\\'
  · rw [if_pos hc]
    have hescape : DotMode.read (.quoted w) '\\' = some ([], .escaped w) := rfl
    have hread : DotMode.read (.escaped w) c = some ([], .quoted (w ++ [c])) := if_pos hc
    exact feed_cons hescape (feed_cons hread rfl)
  · rw [if_neg hc]
    rw [not_or] at hc
    have hread : DotMode.read (.quoted w) c = some ([], .quoted (w ++ [c])) := by
      rw [DotMode.read, if_neg hc.1, if_neg hc.2]
    exact feed_cons hread rfl

/-- Quotes stay open for as long as their content goes on. -/
theorem feed_escaped (s w : List Char) :
    feed DotMode.read (.quoted w)
        (s.flatMap fun c => if c = '"' ∨ c = '\\' then ['\\', c] else [c]) =
      some ([], .quoted (w ++ s)) := by
  induction s generalizing w with
  | nil => rw [List.append_nil]; rfl
  | cons c s ih =>
    rw [List.flatMap_cons, List.append_cons]
    exact feed_append (feed_escapedChar c w) (ih (w ++ [c]))

/-- A quoted text has a backslash before each quote and backslash in it. -/
theorem toList_dotQuoted (s : String) :
    (dotQuoted s).toList =
      '"' :: ((s.toList.flatMap fun c => if c = '"' ∨ c = '\\' then ['\\', c] else [c]) ++
        ['"']) := by
  simp [dotQuoted]

/-- A quoted text is read as the text that was quoted, whatever it consists of. -/
theorem reads_dotQuoted (s : String) : Reads (dotQuoted s).toList [.quoted s] := by
  have hopen : DotMode.read .between '"' = some ([], .quoted []) := rfl
  have hclose : DotMode.read (.quoted s.toList) '"' = some ([.quoted s], .between) := by
    rw [DotMode.read, if_pos rfl, String.ofList_toList]
  rw [toList_dotQuoted]
  exact feed_cons hopen (feed_append (feed_escaped s.toList []) (feed_cons hclose rfl))

/-- Names that can stand without quotes. -/
def IsDotName (name : String) : Prop :=
  name ≠ "" ∧ name ≠ "->" ∧ ∀ c ∈ name.toList, isDotNameChar c = true

instance : DecidablePred IsDotName := fun name =>
  decidable_of_iff (name ≠ "" ∧ name ≠ "->" ∧ name.toList.all isDotNameChar = true)
    (by rw [IsDotName, List.all_eq_true])

/-- A name is read as one. -/
theorem DotToken.ofName_toList {name : String} (hname : IsDotName name) :
    ofName name.toList = .name name := by
  have harrow : name.toList ≠ ['-', '>'] := fun h =>
    hname.2.1 (String.toList_inj.1 h)
  rw [ofName, if_neg harrow, String.ofList_toList]

/-- The characters of a name go on with the name. -/
theorem feed_name_of_forall {w : List Char} (hw : ∀ c ∈ w, isDotNameChar c = true)
    (front : List Char) : feed DotMode.read (.name front) w = some ([], .name (front ++ w)) := by
  induction w generalizing front with
  | nil => rw [List.append_nil]; rfl
  | cons c w ih =>
    have hread : DotMode.read (.name front) c = some ([], .name (front ++ [c])) :=
      if_pos (hw c (by simp))
    rw [List.append_cons]
    exact feed_cons hread (ih (fun d hd => hw d (by simp [hd])) _)

/-- The first of them starts it. -/
theorem start_of_isDotNameChar {c : Char} (hc : isDotNameChar c = true) :
    DotMode.start c = ([], .name [c]) := by
  simp only [isDotNameChar, Bool.and_eq_true, bne_iff_ne, ne_eq, Bool.not_eq_true'] at hc
  obtain ⟨⟨hquote, hmark⟩, hspace⟩ := hc
  simp [DotMode.start, hquote, hmark, hspace]

/-- So a name is being read once all of it has been. -/
theorem IsDotName.feed_eq {name : String} (hname : IsDotName name) :
    feed DotMode.read .between name.toList = some ([], .name name.toList) := by
  obtain ⟨hne, -, hchars⟩ := hname
  cases hw : name.toList with
  | nil => exact absurd (String.toList_inj.1 hw) hne
  | cons c w =>
    rw [hw] at hchars
    have hread : DotMode.read .between c = some ([], .name [c]) := by
      rw [DotMode.read, start_of_isDotNameChar (hchars c (by simp))]
    exact feed_cons hread (feed_name_of_forall (fun d hd => hchars d (by simp [hd])) [c])

/-- A name ends where something else begins. -/
theorem reads_name_append {name : String} (hname : IsDotName name) {c : Char} {rest : List Char}
    {tokens : List DotToken} (hc : isDotNameChar c = false) (h : Reads (c :: rest) tokens) :
    Reads (name.toList ++ c :: rest) (.name name :: tokens) := by
  -- The character that ends the name does what it would do between two tokens.
  have hend : DotMode.read (.name name.toList) c =
      some (.name name :: (DotMode.start c).1, (DotMode.start c).2) := by
    rw [DotMode.read, hc, DotToken.ofName_toList hname]
    rfl
  have hstart : DotMode.read .between c = some (DotMode.start c) := rfl
  unfold Reads at h
  rw [feed, hstart, Option.bind_some] at h
  obtain ⟨⟨ts, m⟩, hrest, heq⟩ := Option.map_eq_some_iff.1 h
  obtain ⟨rfl, rfl⟩ := Prod.mk.inj heq
  exact feed_append hname.feed_eq (feed_cons hend hrest)

/-! ## Attributes -/

/-- The tokens of attributes, with a comma between any two. -/
def attributeTokens (attributes : List (String × String)) : List DotToken :=
  [.mark ','].intercalate (attributes.map fun a => [.name a.1, .mark '=', .quoted a.2])

/-- A name, a mark and a quoted text are read as an attribute. -/
theorem feed_attribute (head : String) (before : List (String × String)) (a : String × String) :
    feed DotPlace.read (.within head before) [.name a.1, .mark '=', .quoted a.2] =
      some ([], .within head (before ++ [a])) := rfl

/-- A list of attributes is read whole and in order. -/
theorem feed_attributeTokens (head : String) (before attributes : List (String × String)) :
    feed DotPlace.read (.within head before) (attributeTokens attributes) =
      some ([], .within head (before ++ attributes)) := by
  unfold attributeTokens
  induction attributes generalizing before with
  | nil => rw [List.append_nil]; rfl
  | cons a attributes ih =>
    -- A comma stands only between two attributes, and changes nothing.
    cases attributes with
    | nil => exact feed_attribute head before a
    | cons b attributes =>
      have hcomma : feed DotPlace.read (.within head (before ++ [a])) [.mark ','] =
          some ([], .within head (before ++ [a])) := rfl
      rw [List.map_cons, List.map_cons, List.intercalate_cons_cons, List.append_cons before]
      exact feed_append (feed_append (feed_attribute head before a) hcomma) (ih (before ++ [a]))

/-- An attribute is written with an equals sign, its value between quotes. -/
theorem reads_attribute {a : String × String} (ha : IsDotName a.1) :
    Reads (a.1 ++ "=" ++ dotQuoted a.2).toList [.name a.1, .mark '=', .quoted a.2] := by
  have hmark : Reads ['='] [.mark '='] := rfl
  rw [String.toList_append, String.toList_append, List.append_assoc]
  exact reads_name_append ha (by decide) (hmark.append (reads_dotQuoted a.2))

/-- Attributes with commas between them are read one by one. -/
theorem reads_attributes {attributes : List (String × String)}
    (h : ∀ a ∈ attributes, IsDotName a.1) :
    Reads (", ".intercalate (attributes.map fun a => a.1 ++ "=" ++ dotQuoted a.2)).toList
      (attributeTokens attributes) := by
  rw [String.toList_intercalate]
  unfold attributeTokens
  induction attributes with
  | nil => rfl
  | cons a attributes ih =>
    have ha := reads_attribute (h a (by simp))
    cases attributes with
    | nil => simpa only [List.map_cons, List.map_nil, List.intercalate_singleton] using ha
    | cons b attributes =>
      -- Between two attributes a comma is read, and a space is skipped.
      have hcomma : Reads [',', ' '] [.mark ','] := rfl
      simp only [List.map_cons, List.intercalate_cons_cons]
      exact (ha.append hcomma).append (ih fun c hc => h c (by simp [hc]))

/-! ## Texts of whole statements -/

/-- A text that is read as these statements, with nothing left open. -/
def Says (text : List Char) (statements : List DotStatement) : Prop :=
  ∃ tokens, Reads text tokens ∧
    feed DotPlace.read .outside tokens = some (statements, .outside)

/-- Texts that say statements one by one say them together. -/
theorem Says.append {s s' : List Char} {ss ss' : List DotStatement} (h : Says s ss)
    (h' : Says s' ss') : Says (s ++ s') (ss ++ ss') := by
  obtain ⟨ts, hreads, hfeed⟩ := h
  obtain ⟨ts', hreads', hfeed'⟩ := h'
  exact ⟨ts ++ ts', hreads.append hreads', feed_append hfeed hfeed'⟩

/-- So do the texts of any number of parts. -/
theorem says_flatMap {α : Type} (parts : List α) {text : α → List Char}
    {statements : α → List DotStatement} (h : ∀ p ∈ parts, Says (text p) (statements p)) :
    Says (parts.flatMap text) (parts.flatMap statements) := by
  induction parts with
  | nil => exact ⟨[], rfl, rfl⟩
  | cons p parts ih =>
    rw [List.flatMap_cons, List.flatMap_cons]
    exact (h p (by simp)).append (ih fun q hq => h q (by simp [hq]))

end ImportAtlas
