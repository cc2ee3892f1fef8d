import ImportAtlas.Console.Screen
import ImportAtlas.Console.Wrap
import ImportAtlas.Text.Line

/-!
# A plain screen

A screen to run the program on, without colours and wide enough for every line. Tags are read and
left out, and tabs go on to the next column whose number is a multiple of eight. In a table, any
line break counts for the width of a column, but only line feeds break the lines of a text; a line
that is then too wide is wrapped, and a text of several lines makes its row as many lines high.

A backslash does not hide a tag from this screen, and it knows no pictures, so names between colons
stay as they are. How many columns a line takes up can be said.
-/

namespace ImportAtlas

namespace Console

namespace Plain

/-- Whether a tag can start with `c`. -/
def startsTag (c : Char) : Bool :=
  c.isLower || c == '#' || c == '/' || c == '@'

/-- The tag at the start of what stands behind an opening bracket, and what stands behind the tag.
No tag has a bracket in it. -/
def tagOf? (piece : List Char) : Option (List Char × List Char) :=
  match piece.dropWhile (· != ']') with
  | [] => none
  | _ :: rest => if piece.head?.any startsTag then some (piece.takeWhile (· != ']'), rest) else none

/-- The name of the style that a tag is about. What stands behind an equals sign is no part of
it. -/
def styleOf (tag : List Char) : List Char :=
  (Text.trim (tag.takeWhile (· != '='))).map Char.toLower

/-- What is said of a tag that ends a style, at some position of a text, where there is no such
style to end. -/
def unopened (tag : List Char) (position : Nat) : ScreenFault where
  name := "MarkupError"
  message := "closing tag '[" ++ String.ofList tag ++ "]' at position " ++ toString position ++
    if styleOf (tag.drop 1) = [] then " has nothing to close" else " doesn't match any open tag"

/-- The open styles after a tag, the nearest first. A tag with a slash ends the nearest style of its
name, or the nearest one if it has no name. -/
def applyTag (opened : List (List Char)) (tag : List Char) (position : Nat) :
    Except ScreenFault (List (List Char)) :=
  match tag with
  | '/' :: name =>
    -- A bare closing tag closes the style that was opened last.
    if styleOf name = [] then
      if opened = [] then .error (unopened tag position) else .ok opened.tail
    else if opened.contains (styleOf name) then .ok (opened.erase (styleOf name))
    else .error (unopened tag position)
  | _ => .ok (styleOf tag :: opened)

/-- Reads what stands behind the opening brackets of a text, of which the first is at
`position`. -/
def readPieces (opened : List (List Char)) (position : Nat) :
    List (List Char) → Except ScreenFault (List Char)
  | [] => .ok []
  | piece :: pieces =>
    match tagOf? piece with
    -- A bracket that opens no tag stands for itself.
    | none => do return '[' :: piece ++ (← readPieces opened (position + 1 + piece.length) pieces)
    | some (tag, rest) => do
      let opened ← applyTag opened tag position
      return rest ++ (← readPieces opened (position + 1 + piece.length) pieces)

/-- Whether a control character is left out. -/
def isDropped (c : Char) : Bool :=
  c == '\x07' || c == '\x08' || c == '\x0b' || c == '\x0c' || c == '\r'

/-- Reads a marked-up text. -/
def read (text : String) : Except ScreenFault String := do
  match text.toList.splitOn '[' with
  | [] => return ""
  | first :: pieces =>
    let shown := first ++ (← readPieces [] first.length pieces)
    return String.ofList (shown.filter fun c => !isDropped c)

/-- Reads the texts of a table. -/
def readTable (t : Table) : Except ScreenFault Table := do
  return { t with
    title := ← read t.title
    headings := ← t.headings.mapM (·.mapM read)
    rows := ← t.rows.mapM (·.mapM read) }

/-! ## Lines -/

section Lines

open Table

variable (columnsOf : List Char → Nat)

/-- How far apart the columns are that tabs go to. -/
def tabWidth : Nat := 8

/-- Parts of a line with spaces for the tabs between them, from column `column` on. -/
def joinTabs (column : Nat) : List (List Char) → List Char
  | [] => []
  | [part] => part
  | part :: parts =>
    let reached := column + columnsOf (part ++ [' '])
    let more := (tabWidth - reached % tabWidth) % tabWidth
    part ++ ' ' :: List.replicate more ' ' ++ joinTabs (reached + more) parts

/-- A line with spaces for its tabs. -/
def expandTabs (line : List Char) : List Char :=
  joinTabs columnsOf 0 (line.splitOn '\t')

/-- The lines of a text. -/
def linesOf (text : String) : List (List Char) :=
  (text.toList.splitOn '\n').map (expandTabs columnsOf)

/-- How many columns a text in a table takes up. -/
def cellWidth (text : String) : Nat :=
  ((Text.lines text.toList).map columnsOf).foldl max 0

/-- The lines of a text in a column of width `w`. -/
def cellLines (w : Nat) (text : String) : List (List Char) :=
  (linesOf columnsOf text).flatMap (wrap columnsOf w)

/-- A line filled up with spaces to the width `w`. -/
def filled (w : Nat) (line : List Char) : List Char :=
  line ++ List.replicate (w - columnsOf line) ' '

/-- A line of a text on one side of a column of width `w`. On the left, the line is filled up once
more, as it can take up less with spaces behind it than before. -/
def justify (side : Side) (w : Nat) (line : List Char) : List Char :=
  match side with
  | .left => filled columnsOf w (filled columnsOf w line)
  | .right => List.replicate (w - columnsOf line) ' ' ++ line

/-- The lines of the texts of a row. -/
def cells (widths : List Nat) (row : List String) : List (List (List Char)) :=
  (widths.zip row).map fun (w, text) => cellLines columnsOf w text

/-- The lines of a row between bars. -/
def rowLines (bar : Char) (columns : List Side) (widths : List Nat) (row : List String) :
    List String :=
  let cells := cells columnsOf widths row
  -- A row is as high as its highest cell.
  let height := (cells.map List.length).foldl max 1
  (List.range height).map fun i =>
    fenced bar bar bar <| (columns.zip (widths.zip cells)).map fun (side, w, lines) =>
      ' ' :: justify columnsOf side w (lines[i]?.getD []) ++ [' ']

/-- The widths of the columns of a table. -/
def widths (t : Table) : List Nat :=
  t.columns.zipIdx.map fun (_, i) =>
    (t.allRows.map fun row => cellWidth columnsOf (row[i]?.getD "")).foldl max 0

/-- The lines of a table that has been read. -/
def drawn (t : Table) : List String :=
  let widths := widths columnsOf t
  let width := (ruleLine topRule widths).length
  let title := (cellLines columnsOf width t.title).map (justify columnsOf .left width)
  let head := match t.headings with
    | none => [ruleLine topRule widths]
    | some headings => ruleLine headTopRule widths ::
        rowLines columnsOf '┃' t.columns widths headings ++ [ruleLine headBottomRule widths]
  title.map String.ofList ++ head ++ t.rows.flatMap (rowLines columnsOf '│' t.columns widths)
    ++ [ruleLine bottomRule widths]

/-- The lines of what is shown. -/
def lines : Exhibit → Except ScreenFault (List String)
  | .text text => return (linesOf columnsOf (← read text)).map String.ofList
  | .table t => return drawn columnsOf (← readTable t)

end Lines

/-- How many columns a line takes up: one for each character that is no control character. -/
def columnsOf (line : List Char) : Nat :=
  line.countP fun c => 0x20 ≤ c.toNat && !(0x7F ≤ c.toNat && c.toNat < 0xA0)

/-- A plain screen that measures lines in its own way. Of the characters that take up one column it
names those that every screen has. -/
def screen (columnsOf : List Char → Nat) : Screen where
  width := 1000000000
  narrow := isPrinted
  read := read
  lines := lines columnsOf

end Plain

/-- The plain screen on which every character but a control character takes up one column. -/
def Screen.plain : Screen :=
  Plain.screen Plain.columnsOf

end Console

end ImportAtlas
