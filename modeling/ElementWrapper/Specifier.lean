import ElementWrapper.Path

/-!
Module specifiers, the texts after `from`. A specifier that begins with a dot is relative: it names
a file as seen from the file that holds it. Any other specifier names a package and is left as it
is.
-/

namespace ElementWrapper.Specifier

/-- The specifier with another extension in place of its last one. -/
def withExtension (path extension : Text) : Text :=
  let name := (Path.splitExtension (Path.base path)).1 ++ extension
  let directory := Path.directory path
  if directory.isEmpty then name else directory ++ [Path.separator] ++ name

/-- The specifier with another extension if it is relative; it stays relative. -/
def relativeWithExtension (source extension : Text) : Text :=
  if source.head? ≠ some (.scalar '.') then source
  else
    let directory := Path.directory source
    if directory = [] ∨ directory = Path.here then
      Path.here ++ [Path.separator] ++ withExtension (Path.base source) extension
    else withExtension source extension

/-- Whether a specifier in a file leads to a place inside of a directory. Paths that are not
absolute start at `start`. -/
def isInside (start source filename directory : Text) : Bool :=
  let origin := Path.directory (Path.absolute start filename)
  let target := Path.absolute origin source
  !Path.up.isPrefixOf (Path.relative target (Path.absolute start directory))

/-- The specifier of a file as it is seen through a path that stands for a directory. -/
def through (path start filename directory extension : Text) : Text :=
  path ++ withExtension
    (Path.relative (Path.absolute start filename) (Path.absolute start directory)) extension

end ElementWrapper.Specifier
