import ElementWrapper.Path

/-!
Routes, the names of files and directories. A route is a path read into its parts: empty parts and
the part `.` lead nowhere and are left out, while `..` stays, since where it leads is up to the
directories on the way. `Route.text` writes a route, and `Route.le` orders routes part by part.
-/

namespace ElementWrapper

/-- A way to a file or a directory: from a root, or from the working directory if the root is
empty. -/
structure Route where
  root : Text := []
  steps : List Text := []
  deriving DecidableEq

namespace Route

/-- The route that a path describes. -/
def ofText (path : Text) : Route where
  root := Path.root path
  steps := (Text.splitOn Path.separator path).filter fun step => step ≠ [] ∧ step ≠ Path.here

instance : Coe Text Route := ⟨ofText⟩

/-- The path that describes a route. -/
def text (route : Route) : Text :=
  let path := route.root ++ Text.join [Path.separator] route.steps
  if path.isEmpty then Path.here else path

/-- Whether a route starts from a root. -/
def isRooted (route : Route) : Bool := !route.root.isEmpty

/-- A route continued by another one, which stands alone if it starts from a root. -/
def join (route continuation : Route) : Route :=
  if continuation.isRooted then continuation
  else { route with steps := route.steps ++ continuation.steps }

instance : Append Route := ⟨join⟩

/-- A route with one more step. -/
def step (route : Route) (name : Text) : Route := { route with steps := route.steps ++ [name] }

/-- The last step of a route. -/
def name (route : Route) : Text := route.steps.getLast?.getD []

/-- The route without its last step. -/
def parent (route : Route) : Route := { route with steps := route.steps.dropLast }

/-- The name before its suffix, and the suffix: the last dot and what follows it. A dot that begins
or ends a name begins no suffix. -/
def splitSuffix (name : Text) : Text × Text :=
  let last := (name.reverse.takeWhile (· ≠ .scalar '.')).length
  let stem := name.take (name.length - (last + 1))
  if stem.isEmpty ∨ last = 0 then (name, []) else (stem, name.drop stem.length)

/-- The suffix of the last step of a route. -/
def suffix (route : Route) : Text := (splitSuffix route.name).2

/-- Whether a text can be a suffix: it is empty or begins with a dot, is more than a dot and holds
no separator. -/
def isSuffix (suffix : Text) : Bool :=
  !suffix.contains Path.separator &&
    (suffix.isEmpty || (suffix.head? = some (.scalar '.') && suffix.length ≠ 1))

/-- The route with another suffix; there is none for a route without steps. -/
def withSuffix? (route : Route) (suffix : Text) : Option Route :=
  if isSuffix suffix && !route.steps.isEmpty then
    some (route.parent.step ((splitSuffix route.name).1 ++ suffix))
  else none

/-- The route from the root without `..` that leads to the same place if no step is a link; a route
without a root starts from the one given. -/
def resolve (route start : Route) : Route where
  root := [Path.separator]
  steps := ((start ++ route).steps.foldl (Path.step true) []).reverse

/-- Whether a code point can be part of a name of a file: any but the null and surrogates, except
for those surrogates that stand for a single byte. -/
def isNamePart (c : CodePoint) : Bool :=
  c.toNat ≠ 0 && (c.toChar?.isSome || 0xDC80 ≤ c.toNat && c.toNat ≤ 0xDCFF)

/-- Whether the steps of a route can be names of files. -/
def isNameable (route : Route) : Bool := route.steps.all (·.all isNamePart)

/-- The rest of a route below another one. -/
def below? (directory route : Route) : Option Route :=
  if directory.root = route.root ∧ directory.steps.isPrefixOf route.steps then
    some { steps := route.steps.drop directory.steps.length }
  else none

/-- The parts of a route: its root, if any, and its steps. -/
def parts (route : Route) : List Text :=
  if route.isRooted then route.root :: route.steps else route.steps

/-- The order of routes by their first parts that differ. -/
def partsLe : List Text → List Text → Bool
  | [], _ => true
  | _ :: _, [] => false
  | a :: as, b :: bs => if a = b then partsLe as bs else Text.le a b

/-- The order of routes. -/
def le (a b : Route) : Bool := partsLe a.parts b.parts

end Route

end ElementWrapper
