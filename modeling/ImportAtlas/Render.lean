import ImportAtlas.Source
import ImportAtlas.Text.ShellWord

/-!
# Rendering

A diagram becomes an image through a layout program. The suffix of the image file names its
format; without one there is nothing to call.
-/

namespace ImportAtlas

/-- How a layout program is called, as the settings have it. -/
structure Layout where
  /-- The way of layout. -/
  engine : Value := .text "dot"
  /-- The program. -/
  command : Value := .text "dot"
  /-- The seconds that it may take. -/
  timeout : Value := .int 60

namespace Layout

/-- The channel of log records about rendering. -/
def channel : String := "export.render"

/-- The call that renders a diagram file as an image file. -/
def arguments (l : Layout) (diagram image : Path) : Act (List Value) := do
  let format := String.ofList (image.suffix.toList.drop 1)
  if format = "" then
    .fail (.rendering ("cannot infer image format from " ++ image.text) none)
  let options := ["-T" ++ format, "-K" ++ (← Act.spell l.engine), diagram.text, "-o", image.text]
  return l.command :: options.map .text

/-- The line that shows a call. What is empty is shown as an empty argument; nothing else but a text
can be shown. -/
def lineOf (call : List Value) : Act String := do
  let words ← call.mapM fun
    | .text s => pure s
    | v => if v.isTruthy then throw .illTyped else pure ""
  return shellLine words

/-- Renders a diagram file as an image file. -/
def render (l : Layout) (diagram image : Path) : Act Unit := do
  let call ← l.arguments diagram image
  let line ← lineOf call
  Act.log .debug channel ("Running " ++ line)
  let refuse {α : Type} (reason : String) : Act α := .fail (.rendering reason (some line))
  match ← Act.call call l.timeout with
  -- None of the three ways to fail leaves a record of success.
  | .notFound => refuse (l.command.nested ++ " not found; install Graphviz")
  | .timedOut => refuse ("timed out after " ++ (← Act.spell l.timeout) ++ "s")
  | .finished status _ errors =>
    if status = 0 then
      Act.log .info channel ("Image written to " ++ image.text)
    else
      let said := String.ofList (Text.trim errors.toList)
      refuse (if said = "" then "exit status " ++ toString status else said)

end Layout

/-- Writes the text of a diagram to a file. -/
def writeDiagram (text : String) (path : Path) : Act Unit := do
  writeText path text
  Act.log .info Layout.channel ("Graph description written to " ++ path.text)

end ImportAtlas
