import ElementWrapper.Files.Route
import ElementWrapper.Text.Quotation
import ElementWrapper.Text.Utf8

/-!
Access to files. `MonadFiles` lists what a program may ask of the system that keeps its files;
reading texts and making all directories of a route are built from that.
-/

namespace ElementWrapper

/-- Why a file cannot be used. -/
inductive FileFault where
  | missing
  | present
  | notDirectory
  | isDirectory
  /-- Any other reason, by its number and in the words of the system. -/
  | other (number : Nat) (reason : Text)
  deriving DecidableEq

/-- The number of a fault. -/
def FileFault.number : FileFault → Nat
  | missing => 2
  | present => 17
  | notDirectory => 20
  | isDirectory => 21
  | other number _ => number

/-- A fault in words. -/
def FileFault.reason : FileFault → Text
  | missing => "No such file or directory"
  | present => "File exists"
  | notDirectory => "Not a directory"
  | isDirectory => "Is a directory"
  | other _ reason => reason

/-- A file that cannot be used. -/
structure FileError where
  fault : FileFault
  route : Route
  deriving DecidableEq

/-- What is reported about a file that cannot be used. -/
def FileError.message (e : FileError) : Text :=
  "[Errno " ++ Text.ofNat e.fault.number ++ "] " ++ e.fault.reason ++ ": " ++
    Text.quotation e.route.text

/-- What a route can lead to. -/
inductive FileKind where
  | file
  | directory
  deriving DecidableEq

/-- What a program may ask of the system that keeps its files. -/
class MonadFiles (m : Type → Type) where
  /-- The directory where routes without a root start. -/
  workingDirectory : m Route
  /-- The directory of the user. -/
  homeDirectory : m (Option Route)
  /-- What a route leads to. -/
  kind? : Route → m (Option FileKind)
  /-- The bytes of a file. -/
  readBytes : Route → m (Except FileFault (List UInt8))
  /-- Puts bytes into a file, which is made if there is none. -/
  writeBytes : Route → List UInt8 → m (Except FileFault Unit)
  /-- Puts bytes at the end of a file, which is made if there is none. -/
  appendBytes : Route → List UInt8 → m (Except FileFault Unit)
  /-- Makes a directory within one that is there. -/
  makeDirectory : Route → m (Except FileFault Unit)
  /-- The files below a directory that are reached through directories whose names pass a test. -/
  filesBelow : (enters : Text → Bool) → Route → m (List Route)

export MonadFiles (workingDirectory homeDirectory kind? readBytes writeBytes appendBytes
  makeDirectory filesBelow)

instance {m : Type → Type} {ρ : Type} [MonadFiles m] : MonadFiles (ReaderT ρ m) where
  workingDirectory := fun _ => workingDirectory
  homeDirectory := fun _ => homeDirectory
  kind? route := fun _ => kind? route
  readBytes route := fun _ => readBytes route
  writeBytes route bytes := fun _ => writeBytes route bytes
  appendBytes route bytes := fun _ => appendBytes route bytes
  makeDirectory route := fun _ => makeDirectory route
  filesBelow enters route := fun _ => filesBelow enters route

/-- Why a file gives no text. -/
inductive ReadFault where
  | file (error : FileError)
  | encoding (error : Utf8.DecodeError)
  deriving DecidableEq

/-- What is reported about a file that gives no text. -/
def ReadFault.message : ReadFault → Text
  | file error => error.message
  | encoding error => error.message

/-- The characters with a line feed at the end of each line, however lines ended before. -/
def unifyLineEnds : List Char → List Char
  | [] => []
  | '\r' :: '\n' :: rest => '\n' :: unifyLineEnds rest
  | '\r' :: rest => '\n' :: unifyLineEnds rest
  | c :: rest => c :: unifyLineEnds rest

section

variable {m : Type → Type} [Monad m] [MonadFiles m]

/-- Whether a route leads to something of a kind. -/
def isKind (kind : FileKind) (route : Route) : m Bool := return (← kind? route) = some kind

/-- The text of a file. -/
def readText (route : Route) : m (Except ReadFault (List Char)) := do
  match ← readBytes route with
  | .error fault => return .error (.file ⟨fault, route⟩)
  | .ok bytes => return (unifyLineEnds <$> Utf8.decode bytes).mapError .encoding

/-- Makes a directory unless it is there already. If the directory around it is missing, `before` is
to make that first. -/
def ensureDirectory (before : m (Except FileError Unit)) (route : Route) :
    m (Except FileError Unit) := do
  match ← makeDirectory route with
  | .ok () => return .ok ()
  | .error .missing => before
  | .error fault => return if ← isKind .directory route then .ok () else .error ⟨fault, route⟩

/-- Makes a directory and at most so many of those on the way to it that are missing. -/
def makeMissing : Nat → Route → m (Except FileError Unit)
  | 0, route => ensureDirectory (return .error ⟨.missing, route⟩) route
  | more + 1, route => ensureDirectory (do
      match ← makeMissing more route.parent with
      | .ok () => ensureDirectory (return .error ⟨.missing, route⟩) route
      | .error error => return .error error) route

/-- Makes a directory and those on the way to it, as far as they are missing. -/
def makeDirectories (route : Route) : m (Except FileError Unit) :=
  makeMissing route.steps.length route

end

end ElementWrapper
