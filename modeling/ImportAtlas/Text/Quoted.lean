import ImportAtlas.Text.Printable

/-!
# Quoted text

How a piece of text is shown inside a message: in single quotes, or in double quotes if it holds
a single quote and no double one. The quote in use, the backslash, tab, line feed and carriage
return are escaped by name, other unprintable characters by their code point in hexadecimal.
-/

namespace ImportAtlas.Text

/-- The lower-case hexadecimal digits of `n`, padded with zeros to `width`. -/
def hexadecimal (width n : Nat) : List Char :=
  let ds := Nat.toDigits 16 n
  List.replicate (width - ds.length) '0' ++ ds

/-- The escaped form of `c` between two quotes `q`. -/
def escapeChar (q c : Char) : List Char :=
  if c == '\\' || c == q then
    ['\\', c]
  else if c == '\t' then
    ['\\', 't']
  else if c == '\n' then
    ['\\', 'n']
  else if c == '\r' then
    ['\\', 'r']
  else if isPrintable c then
    [c]
  else if c.toNat < 0x100 then
    '\\' :: 'x' :: hexadecimal 2 c.toNat
  else if c.toNat < 0x10000 then
    '\\' :: 'u' :: hexadecimal 4 c.toNat
  else
    '\\' :: 'U' :: hexadecimal 8 c.toNat

/-- The quote that `s` is shown in. -/
def quoteFor (s : List Char) : Char :=
  if s.contains '\'' && !s.contains '"' then '"' else '\''

/-- `s` between quotes, with its characters escaped. -/
def quoted (s : List Char) : List Char :=
  let q := quoteFor s
  q :: s.flatMap (escapeChar q) ++ [q]

end ImportAtlas.Text

namespace ImportAtlas

/-- The quoted form of a string. -/
def quotedString (s : String) : String :=
  String.ofList (Text.quoted s.toList)

end ImportAtlas
