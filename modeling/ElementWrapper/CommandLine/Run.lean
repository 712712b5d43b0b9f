import ElementWrapper.Build
import ElementWrapper.CommandLine.Arguments
import ElementWrapper.CommandLine.Console
import ElementWrapper.Json
import ElementWrapper.Project.Loading

/-!
The commands. `CommandLine.run` does what the arguments ask for and gives the status that the
program ends with; a `Breakdown` is a fault that no command reports by itself.
-/

namespace ElementWrapper.CommandLine

/-- What ends the program before its time. -/
inductive Breakdown where
  | logFile (error : FileError)
  | project (error : ProjectError)
  | build (fault : BuildFault)

/-- The status of success. -/
def success : Nat := 0

/-- The status of a command that failed. -/
def failure : Nat := 1

/-- The status of arguments that make no sense. -/
def misuse : Nat := 2

/-- How the program is called. -/
def usage : Text :=
  "usage: wrapgen [-h] [-v] [--log-file LOG_FILE] \x7bbuild,inspect\x7d ...\n"

section

variable {m : Type → Type} [Monad m] [MonadFiles m] [MonadConsole m] [Source.Recovery]

/-- Makes an empty log file with the directories on the way to it. -/
def openLog (path : Text) : ExceptT FileError m Route := do
  let start ← (workingDirectory : m Route)
  (makeDirectories (Route.ofText path).parent : m (Except FileError Unit))
  let file := Route.ofText (Path.absolute start.text (Route.ofText path).text)
  ExceptT.adapt (fun fault => ⟨fault, file⟩) (writeBytes file [] : ExceptT FileFault m Unit)
  return file

/-- The project with what the arguments say about it. -/
def adjust (settings : Settings) (project : Project) : Project where
  root := project.root
  wrapper := { project.wrapper with
    upgradable := project.wrapper.upgradable && !settings.nonUpgradable }
  outDirectory :=
    if settings.outDirectory.isEmpty then project.outDirectory else some settings.outDirectory
  included := project.included
  excluded := project.excluded
  failFast := project.failFast || settings.failFast

/-- Says what has become of modules. -/
def tell (dryRun : Bool) (report : BuildReport) : m Nat := do
  if dryRun then
    for result in report do
      if let .ok (output, code) := result.outcome then
        print ("// " ++ output.text ++ "\n")
        print code
  for result in report do
    if let .error message := result.outcome then complain (message ++ "\n")
  if report.failed.isEmpty then
    print ("Generated " ++ Text.ofNat report.succeeded.length ++ " wrapper module(s)\n")
    return success
  else
    complain ("wrapgen build failed for " ++ Text.ofNat report.failed.length ++ " file(s)\n")
    return failure

/-- Does what a command says in a project. -/
def runCommand (settings : Settings) (project : Project) :
    Command → ExceptT BuildFault (LoggedT m) Nat
  | .build paths => do
    let project := adjust settings project
    let paths := if paths.isEmpty then [project.wrapper.componentsRoot] else paths
    let report ← project.build settings.dryRun (paths.map Route.ofText)
    tell settings.dryRun report
  | .inspect path => do
    try
      print ((← project.inspectFile (Route.ofText path)).toJson.render ++ "\n")
      return success
    catch fault =>
      let some message := fault.complaint? | throw fault
      complain (message ++ "\n")
      return failure

/-- Does what the arguments ask for. -/
def runWith (settings : Settings) (command : Command) : ExceptT Breakdown m Nat := do
  let file ← if settings.logFile.isEmpty then pure none
    else some <$> ExceptT.adapt .logFile (openLog settings.logFile : ExceptT FileError m Route)
  match ← (Project.load (Route.ofText settings.config) : m (Except ProjectError Project)) with
  | .ok project =>
    let target : LogTarget := { verbose := settings.verbose, file := file }
    ExceptT.adapt .build
      ((runCommand settings project command).run target : ExceptT BuildFault m Nat)
  | .error error =>
    let some message := error.complaint? | throw (.project error)
    complain ("Invalid configuration: " ++ message ++ "\n")
    return failure

/-- Does what the arguments of the program ask for. -/
def run (line : List Text) : ExceptT Breakdown m Nat := do
  match read line with
  | .ok (settings, command) => runWith settings command
  | .error .help =>
    print usage
    return success
  | .error .usage =>
    complain usage
    return misuse

end

end ElementWrapper.CommandLine
