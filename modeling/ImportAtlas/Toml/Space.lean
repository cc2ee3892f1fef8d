/-!
# Space and comments

In a TOML document, spaces and tabs separate the parts of a line, and a number sign starts a
comment that goes on to the end of the line. Between the items of a list, lines may end and
comments may stand too. Control characters other than the tab are refused in comments.

A reader gives the value that it reads and the text behind it. If the text is malformed it gives
none, or, where numbers may be read on the way, a fault.
-/

namespace ImportAtlas.Toml

/-- Why a document cannot be read. -/
inductive Fault where
  | malformed
  /-- A whole number has more decimal digits than are read. -/
  | longInteger (digits : Nat)
  /-- Lists and tables are nested too deep. -/
  | tooDeep
  deriving DecidableEq, Repr

/-- The result of a reader that may meet a number. -/
abbrev Reading := Except Fault

/-- What cannot be read at all is malformed. -/
instance : MonadLift Option (Except Fault) where
  monadLift
    | some a => .ok a
    | none => .error .malformed

/-- Whether `c` separates the parts of a line. -/
def isSpace (c : Char) : Bool :=
  c == ' ' || c == '\t'

/-- Whether `c` separates the items of a list. -/
def isGap (c : Char) : Bool :=
  isSpace c || c == '\n'

/-- Whether `c` is a control character that no line may hold. -/
def isControl (c : Char) : Bool :=
  (c.toNat < 32 && c != '\t') || c.toNat == 127

/-- The text without the spaces at its start. -/
def skipSpaces (s : List Char) : List Char :=
  s.dropWhile isSpace

/-- The text without the comment at its start, if there is one. -/
def skipComment : List Char → Option (List Char)
  | '#' :: s =>
    if (s.takeWhile (· != '\n')).any isControl then none else some (s.dropWhile (· != '\n'))
  | s => some s

/-- The text without the spaces, line ends and comments at its start. -/
def skipGaps (s : List Char) : Option (List Char) :=
  match _h : s.dropWhile isGap with
  | '#' :: rest =>
    if (rest.takeWhile (· != '\n')).any isControl then none
    else skipGaps (rest.dropWhile (· != '\n'))
  | rest => some rest
termination_by s.length
decreasing_by
  have h₁ := (List.dropWhile_sublist isGap (l := s)).length_le
  have h₂ := (List.dropWhile_sublist (· != '\n') (l := rest)).length_le
  rw [_h] at h₁
  simp only [List.length_cons] at h₁
  omega

/-- The text behind `mark`, if it starts with it. -/
def afterMark? (mark : String) (s : List Char) : Option (List Char) :=
  if mark.toList.isPrefixOf s then some (s.drop mark.length) else none

end ImportAtlas.Toml
