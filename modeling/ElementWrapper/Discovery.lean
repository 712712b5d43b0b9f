import ElementWrapper.Glob
import ElementWrapper.Log
import ElementWrapper.Project.Basic

/-!
Which modules a build is about. `discover` lists the files that routes lead to and, for directories,
the files below them whose names the project selects, in the order of routes and each of them once.
-/

namespace ElementWrapper

/-- The names of directories without modules of their own. -/
def foreignDirectories : List Text := ["node_modules", "__pycache__"]

/-- Whether modules are looked for in a directory with a name. -/
def isSearched (name : Text) : Bool :=
  !foreignDirectories.contains name && name.head? ≠ some (.scalar '.')

namespace Project

variable (project : Project)

/-- Whether a file with a name has a wrapper. -/
def selects (name : Text) : Bool :=
  let isAccepted (glob : Text) : Bool := (Glob.read glob).accepts name
  project.included.any isAccepted && !project.excluded.any isAccepted

section

variable {m : Type → Type} [Monad m] [MonadFiles m] [MonadLog m]

/-- The modules that a route leads to. -/
def modulesAt (route : Route) : m (List Route) := do
  match ← kind? route with
  | some .file => return [route]
  | some .directory =>
    return (← filesBelow isSearched route).filter fun file => project.selects file.name
  | none =>
    log ⟨.warning, .builder, "Skipping missing path " ++ route.text⟩
    return []

/-- The modules that routes lead to. -/
def discover (routes : List Route) : m (List Route) := do
  return ((← routes.flatMapM project.modulesAt).eraseDups).mergeSort Route.le

end

end Project

end ElementWrapper
