/-!
# Shell words

A command is shown as one line from which a shell would read the same arguments back. An argument
of harmless characters stands as it is; any other stands in single quotes, where a single quote is
written by closing them, quoting it doubly, and opening them again.
-/

namespace ImportAtlas.Text

/-- Whether `c` means only itself to a shell. -/
def isShellPlain (c : Char) : Bool :=
  c.isAlphanum || ['_', '@', '%', '+', '=', ':', ',', '.', '/', '-'].contains c

/-- One argument as a shell word. -/
def shellWord (s : List Char) : List Char :=
  if !s.isEmpty && s.all isShellPlain then
    s
  else
    '\'' :: (s.flatMap fun c => if c == '\'' then "'\"'\"'".toList else [c]) ++ ['\'']

end ImportAtlas.Text

namespace ImportAtlas

/-- The line that shows a command with its arguments. -/
def shellLine (arguments : List String) : String :=
  " ".intercalate (arguments.map fun a => String.ofList (Text.shellWord a.toList))

end ImportAtlas
