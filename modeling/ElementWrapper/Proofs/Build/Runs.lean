import ElementWrapper.Build
import ElementWrapper.Proofs.Files.Runs

/-!
The run that builds one module. Up to the writing of the wrapper it changes nothing but records
(`run_buildFile`), so that its outcome is `Project.wrapped` of the session it starts in.
-/

namespace ElementWrapper

namespace Project

variable (project : Project) (session : Session) (dryRun : Bool) (source : Route)

/-! ## Discovery -/

theorem run_modulesAt (route : Route) :
    (project.modulesAt route : SessionM (List Route)).run session =
      StateT.run (match (session.get? route).map Entry.kind with
        | some .file => return [route]
        | some .directory =>
          return (← filesBelow isSearched route).filter fun file => project.selects file.name
        | none => do
          log ⟨.warning, .builder, "Skipping missing path " ++ route.text⟩
          return [] : SessionM (List Route)) session := rfl

theorem modulesAt_onlyLogs (route : Route) :
    session.OnlyLogs ((project.modulesAt route : SessionM (List Route)).run session).2 := by
  rw [run_modulesAt]
  cases (session.get? route).map Entry.kind with
  | none => exact .noted session _
  | some kind => cases kind <;> exact .refl session

theorem discover_onlyLogs (routes : List Route) :
    session.OnlyLogs ((project.discover routes : SessionM (List Route)).run session).2 := by
  change session.OnlyLogs
    ((routes.flatMapM project.modulesAt : SessionM (List Route)).run session).2
  induction routes generalizing session with
  | nil => exact .refl session
  | cons route routes ih =>
    rw [List.flatMapM_cons]
    exact (project.modulesAt_onlyLogs session route).trans (ih _)

/-! ## Modules -/

/-- A loop that only writes records comes to an end and changes nothing else. -/
theorem exists_run_logs (recordOf : α → LogRecord) (as : List α) :
    ∃ next, session.run (forIn as PUnit.unit fun a _ => do
        log (recordOf a)
        return .yield .unit : ExceptT BuildFault SessionM PUnit) = (.ok .unit, next) ∧
      session.OnlyLogs next := by
  induction as generalizing session with
  | nil => exact ⟨session, rfl, .refl session⟩
  | cons a as ih =>
    obtain ⟨next, logged, only⟩ := ih (session.noted (recordOf a))
    refine ⟨next, ?_, (Session.OnlyLogs.noted session _).trans only⟩
    rw [List.forIn_cons, Session.run_bind]
    exact logged

variable [Source.Recovery]

/-- Reading a module gives its text or the fault of its file, and changes nothing but records. -/
theorem run_readModule :
    ∃ next, session.run (project.readModule source) =
      ((session.text source).mapError .unreadable, next) ∧ session.OnlyLogs next := by
  rw [readModule, Session.run_bind, Session.run_adapt, Session.run_readText]
  cases session.text source with
  | error fault => exact ⟨session, rfl, .refl session⟩
  | ok text =>
    obtain ⟨next, logged, only⟩ :=
      exists_run_logs session noteRecord (harvestNotes project.wrapper source.text text)
    refine ⟨next, ?_, only⟩
    change session.run (_ >>= _) = _
    rw [Session.run_bind, logged]
    rfl

/-- The wrapper of a module and the route to it, as long as it is not written. -/
def wrapped : Except BuildFault (Route × Text) := do
  let output ← project.outputRoute source
  let text ← (session.text source).mapError .unreadable
  let code ← ofStep source (transform project.wrapper source.text text)
  return (output, code)

/-- A build of a module makes its wrapper while it changes nothing but records, and then writes it
unless it is a dry run. -/
theorem run_buildFile :
    ∃ next, session.OnlyLogs next ∧
      session.run (project.buildFile dryRun source) =
        match project.wrapped session source with
        | .error fault => (.error fault, next)
        | .ok (output, code) =>
          if dryRun then (.ok (output, code), next)
          else match next.run (writeWrapper output code) with
            | (.ok (), final) => (.ok (output, code), final)
            | (.error fault, final) => (.error fault, final) := by
  rw [buildFile, wrapped, Session.run_bind, Session.run_result]
  cases project.outputRoute source with
  | error fault => exact ⟨session, .refl session, rfl⟩
  | ok output =>
    obtain ⟨next, read, only⟩ := project.run_readModule session source
    refine ⟨next, only, ?_⟩
    change session.run (project.readModule source >>= _) = _
    rw [Session.run_bind, read]
    cases session.text source with
    | error fault => rfl
    | ok text =>
      change next.run (liftM (ofStep source _) >>= _) = _
      rw [Session.run_bind, Session.run_result]
      dsimp only [Except.mapError, bind, Except.bind]
      cases ofStep source (transform project.wrapper source.text text) with
      | error fault => rfl
      | ok code =>
        cases dryRun with
        | true => rfl
        | false =>
          change next.run (writeWrapper output code >>= _) =
            match next.run (writeWrapper output code) with
            | (.ok (), final) => (.ok (output, code), final)
            | (.error fault, final) => (.error fault, final)
          rw [Session.run_bind]
          rcases next.run (writeWrapper output code) with ⟨fault | _, final⟩ <;> rfl

/-- The result of a module: what its build gives, a record of its failure, or the fault that ends
the run. -/
theorem run_buildResult :
    session.run (project.buildResult dryRun source) =
      match session.run (project.buildFile dryRun source) with
      | (.ok wrapper, next) => (.ok ⟨source, .ok wrapper⟩, next)
      | (.error fault, next) =>
        match fault.complaint? with
        | some complaint =>
          (.ok ⟨source, .error complaint⟩,
            next.noted ⟨.error, .builder, "Failed to build " ++ source.text ++ ": " ++ complaint⟩)
        | none => (.error fault, next) := by
  rw [buildResult, Session.run_bind, Session.run_tryCatch, Session.run_bind]
  obtain ⟨fault | wrapper, next⟩ := session.run (project.buildFile dryRun source)
  · cases h : fault.complaint? <;> simp only [h] <;> rfl
  · rfl

end Project

end ElementWrapper
