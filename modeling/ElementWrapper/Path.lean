import ElementWrapper.Text.Blank

/-!
Paths as text. A path is a sequence of components between slashes; it is absolute if a slash begins
it. `normalize` resolves the components `.` and `..` by their names alone, and `relative` leads from
one path to another.
-/

namespace ElementWrapper.Path

/-- The code point between two components. -/
def separator : CodePoint := '/'

/-- The component that stays where it is. -/
def here : Text := "."

/-- The component that goes up. -/
def up : Text := ".."

/-- Whether a path does not depend on where it starts. -/
def isAbsolute (path : Text) : Bool := path.head? = some separator

/-- The path without the slashes at its end, unless there is nothing else in it. -/
def trimSlashes (path : Text) : Text :=
  let trimmed := Text.trimEnd (· = separator) path
  if trimmed.isEmpty then path else trimmed

/-- The part after the last slash. -/
def base (path : Text) : Text := (path.reverse.takeWhile (· ≠ separator)).reverse

/-- The part before the last slash; the slash of the root is kept. -/
def directory (path : Text) : Text := trimSlashes (path.take (path.length - (base path).length))

/-- What is before the last dot of a name and what begins with it. Dots at the beginning of a name
begin no extension. -/
def splitExtension (name : Text) : Text × Text :=
  let last := (name.reverse.takeWhile (· ≠ .scalar '.')).length
  let stem := name.take (name.length - (last + 1))
  if stem.all (· = .scalar '.') then (name, []) else (stem, name.drop stem.length)

/-- A path continued by another one, which stands alone if it is absolute. -/
def join (path continuation : Text) : Text :=
  if isAbsolute continuation then continuation
  else if path.isEmpty || path.getLast? = some separator then path ++ continuation
  else path ++ [separator] ++ continuation

/-- The slashes of the root of a path: two are a root of their own, three or more are one. -/
def root : Text → Text
  | .scalar '/' :: .scalar '/' :: .scalar '/' :: _ => "/"
  | .scalar '/' :: .scalar '/' :: _ => "//"
  | .scalar '/' :: _ => "/"
  | _ => []

/-- The components above which a normal path has gone, last first, after one more component. -/
def step (rooted : Bool) (above : List Text) (component : Text) : List Text :=
  if component = [] ∨ component = here then above
  else if component = up then
    match above with
    | [] => if rooted then [] else [up]
    | last :: rest => if last = up then up :: last :: rest else rest
  else component :: above

/-- The components of the normal form of a path. -/
def components (path : Text) : List Text :=
  ((Text.splitOn separator path).foldl (step (isAbsolute path)) []).reverse

/-- The path without `.`, without empty components, and with `..` only at the beginning of a path
that is not absolute. -/
def normalize (path : Text) : Text :=
  let normal := root path ++ Text.join [separator] (components path)
  if normal.isEmpty then here else normal

/-- The normal form of a path that starts at a directory. -/
def absolute (start path : Text) : Text := normalize (join start path)

/-- The length of the longest beginning that two lists share. -/
def sharedLength : List Text → List Text → Nat
  | a :: as, b :: bs => if a = b then sharedLength as bs + 1 else 0
  | _, _ => 0

/-- The way from one directory to a path, both of them absolute and normal. -/
def relative (target start : Text) : Text :=
  let names (path : Text) := (Text.splitOn separator path).filter (!·.isEmpty)
  let shared := sharedLength (names start) (names target)
  let way := List.replicate ((names start).length - shared) up ++ (names target).drop shared
  if way.isEmpty then here else Text.join [separator] way

end ElementWrapper.Path
