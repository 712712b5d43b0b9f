import ElementWrapper.Discovery
import ElementWrapper.Transform

/-!
Builds. `Project.buildFile` makes the wrapper of one module and puts it where `Project.outputRoute`
says, and `Project.build` does so for all modules that routes lead to. Most faults of a module are
kept in the report as its result; those that `BuildFault.complaint?` has no words for end the build.
-/

namespace ElementWrapper

/-- Why a module has no wrapper. -/
inductive BuildFault where
  /-- The wrapper would take the place of its module. -/
  | overwrites (source : Route)
  /-- The extension of wrappers can be put to no name, the route has no name, or a name on the way
  to the module or to its wrapper is none that a file can have. -/
  | badName
  | unreadable (fault : ReadFault)
  | rejected (filename : Text) (failure : Failure)
  | unwritable (error : FileError)
  /-- The wrapper holds a surrogate, which has no encoding. -/
  | unencodable
  deriving DecidableEq

namespace BuildFault

/-- What is reported about a module without a wrapper, unless the fault ends the build. -/
def complaint? : BuildFault → Option Text
  | overwrites source => some ("Refusing to overwrite " ++ source.text ++ " with its own wrapper")
  | unreadable fault => some fault.message
  | rejected _ (@Failure.grammar d) | rejected _ (.diagnostic d) => some d.render
  | unwritable error => some error.message
  | rejected .. | badName | unencodable => none

end BuildFault

/-- What has become of a module: its wrapper with the route to it, or what is reported about it. -/
structure BuildResult where
  source : Route
  outcome : Except Text (Route × Text)

/-- Whether a module has a wrapper. -/
def BuildResult.isSuccess (result : BuildResult) : Bool := result.outcome.isOk

/-- What has become of modules, in the order in which they were built. -/
abbrev BuildReport := List BuildResult

namespace BuildReport

/-- The modules that have a wrapper. -/
def succeeded (report : BuildReport) : List BuildResult := report.filter (·.isSuccess)

/-- The modules that have none. -/
def failed (report : BuildReport) : List BuildResult := report.filter (!·.isSuccess)

end BuildReport

namespace Project

/-- The route to the wrapper of a module: in the directory of wrappers it is as far below as the
module is below the directory of the components, or at the top if the module is not there. -/
def outputRoute (project : Project) (source : Route) : Except BuildFault Route := do
  let start := Route.ofText project.wrapper.start
  let place := source.resolve start
  let components := Route.ofText project.wrapper.componentsRoot
  let below := if components.isNameable then (components.resolve start).below? place else none
  let target := match project.outDirectory with
    | none => source
    | some directory => directory ++ below.getD (Route.ofText source.name)
  let some target := target.withSuffix? project.wrapper.outputExtension | throw .badName
  if !(target.isNameable && source.isNameable) then throw .badName
  if target.resolve start = place then throw (.overwrites source)
  return target

section

variable {m : Type → Type} [Monad m] [MonadFiles m] [MonadLog m] [Source.Recovery]
  (project : Project)

/-- A place as records show it. -/
def placeText : Option Location → Text
  | some place =>
    "SourceLocation(line=" ++ Text.ofInt place.line ++ ", column=" ++ Text.ofInt place.column ++ ")"
  | none => "None"

/-- The record of a remark about a harvest. -/
def noteRecord : Harvest.Note → LogRecord
  | .parentOutside source =>
    ⟨.debug, .harvester, "Parent class source " ++ source ++ " is outside the component tree"⟩
  | .computedProperty place =>
    ⟨.debug, .harvester, "Skipping @property() on a computed member at " ++ placeText place⟩
  | .harvested filename properties events element =>
    let hasElement : Text := if element then "True" else "False"
    ⟨.debug, .harvester, "Harvested " ++ filename ++ ": " ++ Text.ofNat properties ++
      " properties, " ++ Text.ofNat events ++ " events, element=" ++ hasElement⟩

/-- The result of a step on the way from a module to its wrapper. -/
def ofStep {α : Type} (source : Route) (result : Except Failure α) : Except BuildFault α :=
  result.mapError (.rejected source.text)

/-- The source text of a module, after records of its harvest. -/
def readModule (source : Route) : ExceptT BuildFault m (List Char) := do
  let text ← ExceptT.adapt .unreadable (readText source : ExceptT ReadFault m (List Char))
  for note in harvestNotes project.wrapper source.text text do
    log (noteRecord note)
  return text

/-- Puts a wrapper where a route leads to. Nothing but the file itself is made of a wrapper that has
no encoding. -/
def writeWrapper (output : Route) (code : Text) : ExceptT BuildFault m Unit := do
  ExceptT.adapt .unwritable (makeDirectories output.parent : ExceptT FileError m Unit)
  let chars := code.toChars?
  ExceptT.adapt (fun fault => .unwritable ⟨fault, output⟩)
    (writeBytes output (Utf8.encode (chars.getD [])) : ExceptT FileFault m Unit)
  if chars.isNone then throw .unencodable
  log ⟨.info, .builder, "Wrote " ++ output.text⟩

/-- Makes the wrapper of a module, and puts it where it belongs unless it is a dry run. -/
def buildFile (dryRun : Bool) (source : Route) : ExceptT BuildFault m (Route × Text) := do
  let output ← project.outputRoute source
  let text ← project.readModule source
  let code ← ofStep source (transform project.wrapper source.text text)
  if !dryRun then writeWrapper output code
  return (output, code)

/-- What becomes of a module in a build. -/
def buildResult (dryRun : Bool) (source : Route) : ExceptT BuildFault m BuildResult := do
  try
    return ⟨source, .ok (← project.buildFile dryRun source)⟩
  catch fault =>
    let some complaint := fault.complaint? | throw fault
    log ⟨.error, .builder, "Failed to build " ++ source.text ++ ": " ++ complaint⟩
    return ⟨source, .error complaint⟩

/-- What becomes of modules one after the other; the first failure may be the end. -/
def buildResults (dryRun : Bool) : List Route → ExceptT BuildFault m BuildReport
  | [] => return []
  | source :: rest => do
    let result ← project.buildResult dryRun source
    if !result.isSuccess && project.failFast then
      log ⟨.info, .builder, "Stopping after first failure (fail_fast)"⟩
      return [result]
    return result :: (← buildResults dryRun rest)

/-- Makes the wrappers of all modules that routes lead to. -/
def build (dryRun : Bool) (routes : List Route) : ExceptT BuildFault m BuildReport := do
  let sources ← (project.discover routes : m (List Route))
  log ⟨.debug, .builder, "Discovered " ++ Text.ofNat sources.length ++ " component modules"⟩
  let report ← project.buildResults dryRun sources
  let kind : Text := if dryRun then " (dry-run)" else []
  log ⟨.info, .builder,
    "Built " ++ Text.ofNat report.succeeded.length ++ " of " ++ Text.ofNat sources.length ++
      " modules" ++ kind⟩
  return report

/-- The metadata of a module as it is shown. -/
def inspectFile (source : Route) : ExceptT BuildFault m Summary := do
  let text ← project.readModule source
  let metadata ← ofStep source (inspect project.wrapper source.text text)
  ofStep source (metadata.summary.mapError .unprintable)

end

end Project

end ElementWrapper
