import ElementWrapper.Files.Tree
import ElementWrapper.CommandLine.Console

/-!
Runs on a file tree in memory. A `Session` is the state of such a run: the files, and what the run
has said so far.
-/

namespace ElementWrapper

/-- The state of a run on a file tree. -/
structure Session where
  files : FileTree := .empty
  /-- Where routes without a root start. -/
  working : Place := []
  /-- The directory of the user. -/
  home : Option Place := none
  /-- The records so far, the last one first. -/
  records : List LogRecord := []
  /-- What was printed so far, the last of it first. -/
  printed : List Text := []
  /-- What was complained about so far, the last of it first. -/
  complaints : List Text := []

/-- A run on a file tree. -/
abbrev SessionM := StateM Session

namespace Session

/-- The place that a route leads to. -/
def locate (session : Session) (route : Route) : Except FileFault Place :=
  session.files.follow (if route.isRooted then [] else session.working) route.steps

/-- What stands where a route leads to. -/
def get? (session : Session) (route : Route) : Option Entry :=
  match session.locate route with
  | .ok place => session.files.get? place
  | .error _ => none

/-- The bytes of the file that a route leads to. -/
def read (session : Session) (route : Route) : Except FileFault (List UInt8) :=
  session.locate route >>= session.files.read

/-- The run that changes the files, or fails and changes nothing. -/
def change (edit : Session → Except FileFault FileTree) : SessionM (Except FileFault Unit) :=
  fun session => match edit session with
    | .ok files => (.ok (), { session with files })
    | .error fault => (.error fault, session)

/-- The route from the root to a place. -/
def routeTo (place : Place) : Route := { root := [Path.separator], steps := place }

instance : MonadFiles SessionM where
  workingDirectory := return routeTo (← get).working
  homeDirectory := return (← get).home.map routeTo
  kind? route := return ((← get).get? route).map Entry.kind
  readBytes route := return (← get).read route
  writeBytes route bytes := change fun session => do
    session.files.write (← session.locate route) bytes
  appendBytes route bytes := change fun session => do
    let place ← session.locate route
    match session.files.get? place with
    | some (.file content) => session.files.write place (content ++ bytes)
    | _ => session.files.write place bytes
  makeDirectory route := change fun session => do
    session.files.makeDirectory (← session.locate route)
  filesBelow enters route := do
    let session ← get
    return match session.locate route with
      | .ok place => (session.files.filesBelow enters place).map fun way =>
        { route with steps := route.steps ++ way }
      | .error _ => []

instance : MonadLog SessionM where
  log record := modify fun session => { session with records := record :: session.records }

instance : MonadConsole SessionM where
  print text := modify fun session => { session with printed := text :: session.printed }
  complain text := modify fun session => { session with complaints := text :: session.complaints }
  stamp := return []

end Session

end ElementWrapper
