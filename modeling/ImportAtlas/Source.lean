import ImportAtlas.Host

/-!
# Reading and writing text

Source files are read as UTF-8 in which broken parts are shown as U+FFFD; nothing else about a
text can make reading fail. Text is written as UTF-8, after the folders above the file are made.
Faults of the file system become failures that name the file.
-/

namespace ImportAtlas

/-- The text of a source file. -/
def readSource (path : Path) : Act String := do
  let bytes ← try Act.readBytes path.text catch
    | .access fault text => .fail (.fileAccess path.text ("OS error: " ++ fault.text text))
    | e => throw e
  return String.ofList (Text.Utf8.decodeLenient bytes)

/-- Writes a text file. -/
def writeText (path : Path) (text : String) : Act Unit :=
  try Act.writeBytes path (Text.Utf8.encode text.toList) catch
    | .access fault text => .fail (.fileAccess path.text ("Write failed: " ++ fault.text text))
    | e => throw e

end ImportAtlas
