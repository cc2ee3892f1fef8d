import ImportAtlas.Console.Table
import ImportAtlas.Host

/-!
# The screen

What the console gets is marked-up text, alone or in tables: `[style]` puts what follows in a style
and `[/style]` ends it, and a name between two colons stands for a picture. How marks are read, how
wide characters are, what becomes of a line without room and what is refused is up to the library
that draws on the console. A `Screen` stands for this library on one console. What it is known to do
is said by its laws (`Screen.Laws`), and nothing else is assumed of it.
-/

namespace ImportAtlas

namespace Console

/-- What can be shown: a marked-up text, or a table of such texts. -/
inductive Exhibit where
  | text (text : String)
  | table (t : Table)

/-- Whether a character is one of the printable ones of ASCII, or an arrow. -/
def isPrinted (c : Char) : Bool :=
  (0x20 ≤ c.toNat && c.toNat ≤ 0x7E) || c == '↔'

/-- A console and the library that draws on it. -/
structure Screen where
  /-- How many columns the console has. -/
  width : Nat
  /-- The characters that are shown as they are, in one column. -/
  narrow : Char → Bool
  /-- What a marked-up text says when its marks are taken away. -/
  read : String → Except ScreenFault String
  /-- The lines of what is shown, without their styles. What cannot be shown shows no line. -/
  lines : Exhibit → Except ScreenFault (List String)

/-- A text in a style. -/
def styled (style text : String) : String :=
  "[" ++ style ++ "]" ++ text ++ "[/" ++ style ++ "]"

/-- The styles of texts. -/
def styles : List String :=
  ["bold cyan", "bold yellow", "green", "red"]

/-- Shows lines on the console. -/
def printLines (lines : List String) : Act Unit :=
  modify fun host => { host with printed := host.printed ++ lines }

/-- Shows something on the console. -/
def print (screen : Screen) (e : Exhibit) : Act Unit := do
  printLines (← Act.ofExcept .screen (screen.lines e))

end Console

end ImportAtlas
