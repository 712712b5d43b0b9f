import ElementWrapper.Project.Description

/-!
Loading a project from its file. `Project.load` finds the file by a route to it or to its directory;
a project without a file is the standard one.
-/

namespace ElementWrapper.Project

/-- A route with the directory of the user in place of the step `~` at its beginning. -/
def expandHome (home : Option Route) (route : Route) : Route :=
  match home, route.root, route.steps with
  | some home, [], [.scalar '~'] :: rest => { home with steps := home.steps ++ rest }
  | _, _, _ => route

/-- The suffixes of files that may describe a project. -/
def fileSuffixes : List Text := [".yml", ".yaml"]

section

variable {m : Type → Type} [Monad m] [MonadFiles m]

/-- The file that describes a project, found by a route to a file or a directory. -/
def fileOf (route : Route) : m Route := do
  let route := expandHome (← homeDirectory) route
  let start ← workingDirectory
  let file :=
    if ← isKind .directory route then route.step projectFile
    else if route.suffix ∈ fileSuffixes then route
    else route.parent.step projectFile
  return file.resolve start

/-- The value of a description; one without content is a mapping without entries. -/
def readDescription (file : Text) (source : List Char) : Except ProjectError Yaml.Value :=
  if source.all fun c => Text.isBlank (.scalar c) then .ok (.mapping [])
  else match Yaml.Value.read source with
    | .ok value => .ok (if value.isTrue then value else .mapping [])
    | .error .malformed => .error (.malformed file)
    | .error .value => .error .badValue
    | .error .overflow => .error .tooLarge

/-- The project that a route leads to. -/
def load (route : Route) : m (Except ProjectError Project) := do
  let start ← workingDirectory
  let file ← fileOf route
  if (← kind? file).isNone then return ofDescription (.mapping []) start file.parent
  match ← readText file with
  | .error fault => return .error (.unreadable fault)
  | .ok source =>
    return do ofDescription (← readDescription file.name source) start file.parent

end

end ElementWrapper.Project
