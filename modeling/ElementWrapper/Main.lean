import Std.Time.Format
import ElementWrapper.CommandLine.Run

/-!
The program: files, the console and the clock of the machine that it runs on.
-/

namespace ElementWrapper.Machine

/-- The characters of a text, with the replacement character for surrogates. -/
def string (text : Text) : String :=
  String.ofList (text.map fun c => c.toChar?.getD '\ufffd')

/-- A fault by its number. -/
def faultOf (number : UInt32) (reason : String) : FileFault :=
  match number with
  | 2 => .missing
  | 17 => .present
  | 20 => .notDirectory
  | 21 => .isDirectory
  | n => .other n.toNat reason

/-- The fault that an error of the system tells of. -/
def fault : IO.Error → FileFault
  | .noFileOrDirectory _ number reason | .alreadyExists _ number reason
  | .inappropriateType _ number reason | .permissionDenied _ number reason
  | .noSuchThing _ number reason | .resourceExhausted _ number reason
  | .invalidArgument _ number reason | .otherError number reason
  | .unsatisfiedConstraints number reason | .resourceBusy number reason =>
    faultOf number reason
  | error => .other 5 (toString error)

/-- The result of an action on files, or its fault. -/
def attempt {α : Type} (action : IO α) : IO (Except FileFault α) := do
  try return .ok (← action) catch error => return .error (fault error)

/-- The bytes of a list as the system takes them. -/
def byteArray (bytes : List UInt8) : ByteArray := ⟨bytes.toArray⟩

/-- The files below a directory. Links to directories are not followed. -/
partial def below (enters : Text → Bool) (route : Route) : IO (List Route) := do
  let directory := (← IO.currentDir) / string route.text
  let entries ← try directory.readDir catch _ => return []
  let found ← entries.toList.mapM fun entry => do
    let inner := route.step (Text.ofString entry.fileName)
    if !(← entry.path.isDir) then return [inner]
    let isLink := (← entry.path.symlinkMetadata).type != .dir
    if isLink || !enters inner.name then return []
    below enters inner
  return found.flatten

instance : MonadFiles IO where
  workingDirectory := return Route.ofText (Text.ofString (← IO.currentDir).toString)
  homeDirectory := return (← IO.getEnv "HOME").map fun home => Route.ofText (Text.ofString home)
  kind? route := do
    let path := (← IO.currentDir) / string route.text
    if ← path.isDir then return some .directory
    return if ← path.pathExists then some .file else none
  readBytes route := attempt do return (← IO.FS.readBinFile (string route.text)).toList
  writeBytes route bytes := attempt (IO.FS.writeBinFile (string route.text) (byteArray bytes))
  appendBytes route bytes := attempt do
    (← IO.FS.Handle.mk (string route.text) .append).write (byteArray bytes)
  makeDirectory route := attempt (IO.FS.createDir (string route.text))
  filesBelow := below

instance : MonadConsole IO where
  print text := do (← IO.getStdout).putStr (string text)
  complain text := do (← IO.getStderr).putStr (string text)
  stamp := do
    let now ← Std.Time.PlainDateTime.now
    return Text.ofString (now.format "uuuu-MM-dd HH:mm:ss,SSS ")

/-- What is said about a breakdown. -/
def report : CommandLine.Breakdown → Text
  | .logFile error => error.message
  | .project (.unreadable fault) => fault.message
  | .project error => error.complaint?.getD "the configuration holds a value that cannot be read"
  | .build (.rejected filename _) => filename ++ ": no wrapper can be made"
  | .build .badName => "the extension of wrappers fits no name"
  | .build fault => fault.complaint?.getD "the wrapper cannot be encoded"

end ElementWrapper.Machine

open ElementWrapper in
/-- Does what the arguments ask for. -/
def main (arguments : List String) : IO UInt32 := do
  match ← (CommandLine.run (arguments.map Text.ofString) : ExceptT _ IO Nat).run with
  | .ok status => return UInt32.ofNat status
  | .error breakdown =>
    complain (Machine.report breakdown ++ "\n")
    return 1
