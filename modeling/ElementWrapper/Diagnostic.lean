import ElementWrapper.Module.Node
import ElementWrapper.Text.Blank

/-!
Errors about a module. A `Diagnostic` names a place in the module once a file is attached to it, and
then `Diagnostic.frame` shows the lines around the place with a caret under it.
-/

namespace ElementWrapper

/-- An error found in a module: what is wrong, where, and in which file. -/
structure Diagnostic where
  message : Text
  location : Option Location
  filename : Option Text := none
  source : Option Text := none
  deriving DecidableEq

namespace Diagnostic

/-- The diagnostic with the file that it belongs to; what was attached first stays. -/
def attach (d : Diagnostic) (filename : Text) (source : Option Text) : Diagnostic :=
  { d with filename := d.filename.or (some filename), source := d.source.or source }

/-- The number of lines shown on each side of the place. -/
def contextLines : Nat := 2

/-- A number at the right end of a column. -/
def padLeft (width : Nat) (text : Text) : Text :=
  List.replicate (width - text.length) (.scalar ' ') ++ text

/-- The lines of the frame around the line with an index. -/
def frameLines (lines : List Text) (index : Nat) (column : Int) : List Text :=
  let first := index - contextLines
  let last := min lines.length (index + contextLines + 1)
  let width := (Text.ofNat last).length
  let blanks (n : Nat) : Text := List.replicate n (.scalar ' ')
  ((lines.take last).drop first).zipIdx first |>.flatMap fun (line, i) =>
    let marker : Text := if i = index then ">" else " "
    let shown := marker ++ " " ++ padLeft width (Text.ofNat (i + 1)) ++ " | " ++ line
    Text.trimEnd Text.isBlank shown ::
      if i = index then ["  " ++ blanks width ++ " | " ++ blanks column.toNat ++ "^"] else []

/-- The lines around the place with a caret under it; nothing if the place or the source is not
known or the place is in no line of the source. -/
def frame (d : Diagnostic) : Text :=
  match d.location, d.source with
  | some place, some source =>
    let lines := Text.lines source
    if place.line < 1 ∨ lines.length < place.line then []
    else Text.join "\n" (frameLines lines (place.line - 1).toNat place.column)
  | _, _ => []

/-- The whole text of a diagnostic. -/
def render (d : Diagnostic) : Text :=
  let file : Text := match d.filename with
    | none | some [] => "<unknown>"
    | some name => name
  let place : Text := match d.location with
    | some place => ":" ++ Text.ofInt place.line ++ ":" ++ Text.ofInt place.column
    | none => []
  let frame : Text := if d.frame.isEmpty then [] else "\n" ++ d.frame
  file ++ place ++ ": " ++ d.message ++ frame

end Diagnostic

end ElementWrapper
