import ImportAtlas.Text.Hex
import ImportAtlas.Toml.Space

/-!
# Texts and keys

A text stands in single quotes as it is, or in double quotes with escapes; three quotes open a
text of several lines. Keys are bare words or texts of one line, joined by dots.
-/

namespace ImportAtlas.Toml

/-- The character that a backslash and `c` stand for. -/
def escape? : Char → Option Char
  | 'b' => some '\x08'
  | 't' => some '\t'
  | 'n' => some '\n'
  | 'f' => some '\x0c'
  | 'r' => some '\r'
  | '"' => some '"'
  | '\\' => some '\\'
  | _ => none

/-- What a reader of a text is in the middle of. -/
inductive TextState where
  /-- Characters that stand for themselves. -/
  | plain
  /-- Spaces behind a backslash, up to the end of the line. -/
  | lineEnd
  /-- Space at the start of the lines behind a backslash. -/
  | gap

/-- The rest of a text in double quotes and what stands behind it. -/
def basicText (multiline : Bool) : TextState → List Char → Option (List Char × List Char)
  | _, [] => none
  | .lineEnd, c :: s =>
    if isSpace c then basicText multiline .lineEnd s
    else if c == '\n' then basicText multiline .gap s
    else none
  | .gap, ' ' :: s => basicText multiline .gap s
  | .gap, '\t' :: s => basicText multiline .gap s
  | .gap, '\n' :: s => basicText multiline .gap s
  | _, '\\' :: 'u' :: a :: b :: c :: d :: s => do
    let x ← Text.charOfHex? [a, b, c, d]
    let (content, rest) ← basicText multiline .plain s
    return (x :: content, rest)
  | _, '\\' :: 'U' :: a :: b :: c :: d :: e :: f :: g :: h :: s => do
    let x ← Text.charOfHex? [a, b, c, d, e, f, g, h]
    let (content, rest) ← basicText multiline .plain s
    return (x :: content, rest)
  | _, '\\' :: c :: s =>
    -- A backslash at the end of a line takes the break and all blanks that follow.
    if multiline && isSpace c then basicText multiline .lineEnd s
    else if multiline && c == '\n' then basicText multiline .gap s
    else do
      let x ← escape? c
      let (content, rest) ← basicText multiline .plain s
      return (x :: content, rest)
  | _, c :: s =>
    if c == '"' && !multiline then some ([], s)
    else if c == '"' && ['"', '"'].isPrefixOf s then some ([], s.drop 2)
    else if isControl c && !(multiline && c == '\n') then none
    else do
      let (content, rest) ← basicText multiline .plain s
      return (c :: content, rest)

/-- The rest of a text in single quotes and what stands behind it. -/
def literalText : List Char → Option (List Char × List Char)
  | [] => none
  | c :: s =>
    if c == '\'' then some ([], s)
    else if isControl c then none
    else do
      let (content, rest) ← literalText s
      return (c :: content, rest)

/-- The rest of a text in three single quotes and what stands behind it. -/
def literalLines : List Char → Option (List Char × List Char)
  | [] => none
  | c :: s =>
    if c == '\'' && ['\'', '\''].isPrefixOf s then some ([], s.drop 2)
    else if isControl c && c != '\n' then none
    else do
      let (content, rest) ← literalLines s
      return (c :: content, rest)

/-- A text of several lines, its closing quotes read: one or two more quotes right behind them
belong to the text. -/
def withQuotes (quote : Char) (r : List Char × List Char) : List Char × List Char :=
  match r.2 with
  | c :: d :: s =>
    -- Up to two quotes may stand right in front of the closing ones.
    if c == quote then
      if d == quote then (r.1 ++ [quote, quote], s) else (r.1 ++ [quote], d :: s)
    else r
  | [c] => if c == quote then (r.1 ++ [quote], []) else r
  | [] => r

/-- The text without the line end at its start. -/
def dropLineEnd : List Char → List Char
  | '\n' :: s => s
  | s => s

/-- A text in quotes, of one line or of several. -/
def quotedText : List Char → Option (List Char × List Char)
  | '"' :: '"' :: '"' :: s => (basicText true .plain (dropLineEnd s)).map (withQuotes '"')
  | '\'' :: '\'' :: '\'' :: s => (literalLines (dropLineEnd s)).map (withQuotes '\'')
  | '"' :: s => basicText false .plain s
  | '\'' :: s => literalText s
  | _ => none

/-! ## Keys -/

/-- Whether `c` may stand in a bare key. -/
def isBareKey (c : Char) : Bool :=
  c.isAlphanum || c == '-' || c == '_'

/-- One part of a key. -/
def keyPart : List Char → Option (String × List Char)
  | '"' :: s => (basicText false .plain s).map fun r => (String.ofList r.1, r.2)
  | '\'' :: s => (literalText s).map fun r => (String.ofList r.1, r.2)
  | s =>
    if s.takeWhile isBareKey = [] then none
    else some (String.ofList (s.takeWhile isBareKey), s.dropWhile isBareKey)

/-- The parts of a key behind its first one, at most `fuel` of them. -/
def keyRest : Nat → List Char → Option (List String × List Char)
  | 0, _ => none
  | fuel + 1, s =>
    match skipSpaces s with
    | '.' :: s => do
      let (part, s) ← keyPart (skipSpaces s)
      let (parts, s) ← keyRest fuel s
      return (part :: parts, s)
    | s => some ([], s)

/-- A key and what stands behind it and the space around its dots. Each part takes at least one
character. -/
def key (s : List Char) : Option (List String × List Char) := do
  let (part, rest) ← keyPart s
  let (parts, rest) ← keyRest (rest.length + 1) rest
  return (part :: parts, rest)

end ImportAtlas.Toml
