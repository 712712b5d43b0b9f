import ElementWrapper.Proofs.Build.Runs

/-!
How far a build keeps the failures of modules apart. A fault that `BuildFault.endsBuild` is true of
ends the build, and no other fault does: the build then goes on to the next module, unless it is to
stop at the first failure. `Attempts` says which modules a build gets to, and in which sessions.
-/

namespace ElementWrapper

namespace BuildFault

/-- Whether a fault of one module is the end of the build: there is no name for its wrapper, or none
that a file can have; one of its escapes stands for nothing; a rewriting rule cannot be applied; or
its wrapper has no text or no encoding. -/
def endsBuild : BuildFault → Bool
  | badName | unencodable => true
  | rejected _ (.escape _) | rejected _ (.pattern _) | rejected _ (.unprintable _) => true
  | rejected _ .grammar | rejected _ (.diagnostic _) => false
  | overwrites _ | unreadable _ | unwritable _ => false

theorem complaint?_eq_none {fault : BuildFault} : fault.complaint? = none ↔ fault.endsBuild := by
  cases fault with
  | rejected filename failure => cases failure <;> simp [complaint?, endsBuild]
  | _ => simp [complaint?, endsBuild]

end BuildFault

/-- The report about a module says what its build gave. -/
def BuildResult.Records (result : BuildResult) (made : Except BuildFault (Route × Text)) : Prop :=
  match made with
  | .ok wrapper => result.outcome = .ok wrapper
  | .error fault =>
    ∃ complaint, fault.complaint? = some complaint ∧ result.outcome = .error complaint

namespace Project

section

variable [Source.Recovery] (project : Project) (dryRun : Bool)

/-- A build of some modules that starts in a session gets to one of them, in a session of its
own. -/
inductive Attempts : List Route → Session → Route → Session → Prop where
  | here : Attempts (source :: rest) session source session
  | later : session.run (project.buildResult dryRun source) = (.ok result, next) →
      (result.isSuccess ∨ project.failFast = false) → Attempts rest next other before →
      Attempts (source :: rest) session other before

/-- The build of a module that a build gets to fails with a fault that ends the whole. -/
def EndsBy (sources : List Route) (session : Session) (fault : BuildFault) (final : Session) :
    Prop :=
  fault.endsBuild ∧ ∃ source before, project.Attempts dryRun sources session source before ∧
    before.run (project.buildFile dryRun source) = (.error fault, final)

variable {project dryRun}

section

variable {session final : Session} {source : Route}

/-- A module has no result just if its build ends with a fault that ends the whole. -/
theorem buildResult_eq_error {fault : BuildFault} :
    session.run (project.buildResult dryRun source) = (.error fault, final) ↔
      fault.endsBuild ∧ session.run (project.buildFile dryRun source) = (.error fault, final) := by
  rw [run_buildResult]
  rcases session.run (project.buildFile dryRun source) with ⟨other | wrapper, next⟩
  · cases hc : other.complaint? with
    | some complaint =>
      simp only [hc, Prod.mk.injEq, reduceCtorEq, false_and, false_iff, Except.error.injEq]
      rintro ⟨ends, rfl, -⟩
      rw [BuildFault.complaint?_eq_none.2 ends] at hc
      cases hc
    | none =>
      simp only [hc, Prod.mk.injEq, Except.error.injEq, iff_and_self]
      rintro ⟨rfl, -⟩
      exact BuildFault.complaint?_eq_none.1 hc
  · simp

/-- A module without a fault that ends the build has a result, which says what its build gave. -/
theorem buildResult_eq_ok {result : BuildResult}
    (h : session.run (project.buildResult dryRun source) = (.ok result, final)) :
    result.source = source ∧ ∃ made after,
      session.run (project.buildFile dryRun source) = (made, after) ∧ result.Records made := by
  rw [run_buildResult] at h
  rcases made : session.run (project.buildFile dryRun source) with ⟨fault | wrapper, after⟩
  · rw [made] at h
    cases hc : fault.complaint? with
    | some complaint =>
      simp only [hc, Prod.mk.injEq, Except.ok.injEq] at h
      obtain ⟨rfl, -⟩ := h
      exact ⟨rfl, _, _, rfl, complaint, hc, rfl⟩
    | none => simp [hc] at h
  · rw [made] at h
    simp only [Prod.mk.injEq, Except.ok.injEq] at h
    obtain ⟨rfl, -⟩ := h
    exact ⟨rfl, _, _, rfl, rfl⟩

end

/-- What a build of several modules does once it has a result for the first. -/
theorem run_buildResults_cons (session : Session) (source : Route) (rest : List Route) :
    session.run (project.buildResults dryRun (source :: rest)) =
      match session.run (project.buildResult dryRun source) with
      | (.error fault, next) => (.error fault, next)
      | (.ok result, next) =>
        if result.isSuccess ∨ project.failFast = false then
          match next.run (project.buildResults dryRun rest) with
          | (.ok report, final) => (.ok (result :: report), final)
          | (.error fault, final) => (.error fault, final)
        else
          (.ok [result],
            next.noted ⟨.info, .builder, "Stopping after first failure (fail_fast)"⟩) := by
  rw [buildResults, Session.run_bind]
  rcases session.run (project.buildResult dryRun source) with ⟨fault | result, next⟩
  · rfl
  have onward : next.run (do return result :: (← project.buildResults dryRun rest)) =
      match next.run (project.buildResults dryRun rest) with
      | (.ok report, final) => (.ok (result :: report), final)
      | (.error fault, final) => (.error fault, final) := by
    rw [Session.run_bind]
    rcases next.run (project.buildResults dryRun rest) with ⟨fault | report, final⟩ <;> rfl
  cases hs : result.isSuccess with
  | true =>
    simp only [hs, Bool.not_true, Bool.false_and, true_or, if_true]
    exact onward
  | false =>
    cases hf : project.failFast with
    | false =>
      simp only [hs, Bool.and_false, or_true, if_true]
      exact onward
    | true =>
      simp only [hs]
      rfl

section

variable {first : Route} {rest : List Route} {session next final : Session} {fault : BuildFault}

/-- If the first module ends a run, then nothing else does. -/
theorem endsBy_cons_of_error {other : BuildFault}
    (made : session.run (project.buildResult dryRun first) = (.error other, next)) :
    project.EndsBy dryRun (first :: rest) session fault final ↔ other = fault ∧ next = final := by
  constructor
  · rintro ⟨ends, source, before, attempts, failed⟩
    cases attempts with
    | here =>
      cases made.symm.trans (buildResult_eq_error.2 ⟨ends, failed⟩)
      exact ⟨rfl, rfl⟩
    | later reported =>
      rw [made] at reported
      cases reported
  · rintro ⟨rfl, rfl⟩
    obtain ⟨ends, failed⟩ := buildResult_eq_error.1 made
    exact ⟨ends, first, session, .here, failed⟩

/-- If the first module has a result, a run ends by one of the others, provided that it goes on. -/
theorem endsBy_cons_of_ok {result : BuildResult}
    (made : session.run (project.buildResult dryRun first) = (.ok result, next)) :
    project.EndsBy dryRun (first :: rest) session fault final ↔
      (result.isSuccess ∨ project.failFast = false) ∧
        project.EndsBy dryRun rest next fault final := by
  constructor
  · rintro ⟨ends, source, before, attempts, failed⟩
    cases attempts with
    | here =>
      rw [buildResult_eq_error.2 ⟨ends, failed⟩] at made
      cases made
    | later reported goes attempts =>
      rw [made] at reported
      cases reported
      exact ⟨goes, ends, source, before, attempts, failed⟩
  · rintro ⟨goes, ends, source, before, attempts, failed⟩
    exact ⟨ends, source, before, .later made goes attempts, failed⟩

end

/-- **Which faults end a run over modules**: those that end the build, of the modules that it gets
to. -/
theorem buildResults_eq_error {sources : List Route} {session final : Session}
    {fault : BuildFault} :
    session.run (project.buildResults dryRun sources) = (.error fault, final) ↔
      project.EndsBy dryRun sources session fault final := by
  induction sources generalizing session with
  | nil =>
    constructor
    · intro h
      cases h
    · rintro ⟨-, source, before, attempts, -⟩
      cases attempts
  | cons first rest ih =>
    rw [run_buildResults_cons]
    rcases made : session.run (project.buildResult dryRun first) with ⟨other | result, next⟩
    · rw [endsBy_cons_of_error made]
      simp
    · rw [endsBy_cons_of_ok made, ← ih]
      by_cases goes : result.isSuccess ∨ project.failFast = false
      · simp only [goes, if_true, true_and]
        rcases next.run (project.buildResults dryRun rest) with ⟨other | report, last⟩ <;> simp
      · simp [goes]

/-- **What a run over modules reports**: the results of the modules from the first one on, up to the
last unless it stops at a failure. -/
theorem buildResults_eq_ok {sources : List Route} {session final : Session} {report : BuildReport}
    (h : session.run (project.buildResults dryRun sources) = (.ok report, final)) :
    report.map BuildResult.source <+: sources ∧
    (project.failFast = false → report.map BuildResult.source = sources) ∧
    ∀ result ∈ report, ∃ before made after,
      project.Attempts dryRun sources session result.source before ∧
      before.run (project.buildFile dryRun result.source) = (made, after) ∧
      result.Records made := by
  induction sources generalizing session report with
  | nil =>
    cases h
    exact ⟨List.nil_prefix, fun _ => rfl, nofun⟩
  | cons first rest ih =>
    rw [run_buildResults_cons] at h
    rcases made : session.run (project.buildResult dryRun first) with ⟨fault | result, next⟩
    · rw [made] at h
      cases h
    · obtain ⟨rfl, recorded⟩ := buildResult_eq_ok made
      obtain ⟨outcome, after, built, records⟩ := recorded
      rw [made] at h
      by_cases goes : result.isSuccess ∨ project.failFast = false
      · simp only [goes, if_true] at h
        rcases later : next.run (project.buildResults dryRun rest) with ⟨fault | reports, last⟩
        · simp [later] at h
        · simp only [later, Prod.mk.injEq, Except.ok.injEq] at h
          obtain ⟨rfl, rfl⟩ := h
          obtain ⟨initial, whole, faithful⟩ := ih later
          refine ⟨List.cons_prefix_cons.2 ⟨rfl, initial⟩,
            fun slow => congrArg (result.source :: ·) (whole slow), ?_⟩
          rintro other (_ | ⟨_, mem⟩)
          · exact ⟨session, outcome, after, .here, built, records⟩
          · obtain ⟨before, made', after', attempts, found⟩ := faithful other mem
            exact ⟨before, made', after', .later made goes attempts, found⟩
      · simp only [goes, if_false, Prod.mk.injEq, Except.ok.injEq] at h
        obtain ⟨rfl, -⟩ := h
        refine ⟨List.cons_prefix_cons.2 ⟨rfl, List.nil_prefix⟩,
          fun slow => absurd (.inr slow) goes, ?_⟩
        rintro other (_ | ⟨_, mem⟩)
        · exact ⟨session, outcome, after, .here, built, records⟩
        · cases mem

end

/-- The modules that a build finds. -/
def sources (project : Project) (routes : List Route) (session : Session) : List Route :=
  ((project.discover routes : SessionM (List Route)).run session).1

theorem sources_eq {project : Project} {routes files : List Route} {session : Session}
    (found : ((routes.flatMapM project.modulesAt : SessionM (List Route)).run session).1.eraseDups =
      files) (sorted : files.Pairwise fun a b => a.le b) :
    project.sources routes session = files :=
  (congrArg (List.mergeSort · Route.le) found).trans (List.mergeSort_of_pairwise sorted)

/-- The session in which a build begins with the first module. -/
def started (project : Project) (routes : List Route) (session : Session) : Session :=
  ((project.discover routes : SessionM (List Route)).run session).2.noted
    ⟨.debug, .builder, "Discovered " ++ Text.ofNat (project.sources routes session).length ++
      " component modules"⟩

theorem started_onlyLogs (project : Project) (routes : List Route) (session : Session) :
    session.OnlyLogs (project.started routes session) :=
  (project.discover_onlyLogs session routes).trans (.noted _ _)

section

variable [Source.Recovery]

/-- A build runs over the modules that are found, between records. -/
theorem run_build_started (project : Project) (dryRun : Bool) (routes : List Route)
    (session : Session) :
    ∃ recordOf : BuildReport → LogRecord,
      session.run (project.build dryRun routes) =
        match (project.started routes session).run
          (project.buildResults dryRun (project.sources routes session)) with
        | (.error fault, final) => (.error fault, final)
        | (.ok report, final) => (.ok report, final.noted (recordOf report)) := by
  let count := (project.sources routes session).length
  let kind : Text := if dryRun then " (dry-run)" else []
  let recordOf (report : BuildReport) : LogRecord :=
    ⟨.info, .builder, "Built " ++ Text.ofNat report.succeeded.length ++ " of " ++
      Text.ofNat count ++ " modules" ++ kind⟩
  refine ⟨recordOf, ?_⟩
  rw [build, Session.run_bind, Session.run_lift]
  change (project.started routes session).run
    (project.buildResults dryRun (project.sources routes session) >>= _) = _
  rw [Session.run_bind]
  rcases (project.started routes session).run
    (project.buildResults dryRun (project.sources routes session)) with ⟨fault | report, final⟩ <;>
      rfl

/-- What can be said of the results of a run over the modules that are found can be said of the
report of the build. -/
theorem exists_run_build {project : Project} {dryRun : Bool} {routes : List Route}
    {session : Session} {f : BuildReport → α} {a : α}
    (h : ((project.started routes session).run
      (project.buildResults dryRun (project.sources routes session))).1.map f = .ok a) :
    ∃ report final, session.run (project.build dryRun routes) = (.ok report, final) ∧
      f report = a := by
  obtain ⟨recordOf, run⟩ := project.run_build_started dryRun routes session
  rcases made : (project.started routes session).run
    (project.buildResults dryRun (project.sources routes session)) with ⟨fault | report, last⟩ <;>
      rw [made] at h run
  · cases h
  · exact ⟨report, _, run, Except.ok.inj h⟩

theorem run_build (project : Project) (dryRun : Bool) (routes : List Route) (session : Session) :
    ∃ start, ∃ recordOf : BuildReport → LogRecord, session.OnlyLogs start ∧
      session.run (project.build dryRun routes) =
        match start.run (project.buildResults dryRun
          ((project.discover routes : SessionM (List Route)).run session).1) with
        | (.error fault, final) => (.error fault, final)
        | (.ok report, final) => (.ok report, final.noted (recordOf report)) := by
  obtain ⟨recordOf, run⟩ := project.run_build_started dryRun routes session
  exact ⟨_, recordOf, project.started_onlyLogs routes session, run⟩

/-- **How far a build keeps failures apart**. It fails just if it gets to a module with a fault that
ends the build, and leaves what the build of that module leaves. Any other build has a report: on
the modules that were found, or on the first of them if it is to stop at a failure. The report on a
module says what the build of that module gave, be it a wrapper or a fault. -/
theorem build_isolates (project : Project) (dryRun : Bool) (routes : List Route)
    (session : Session) :
    let sources := ((project.discover routes : SessionM (List Route)).run session).1
    ∃ start, session.OnlyLogs start ∧
      (∀ fault final, session.run (project.build dryRun routes) = (.error fault, final) ↔
        project.EndsBy dryRun sources start fault final) ∧
      ∀ report final, session.run (project.build dryRun routes) = (.ok report, final) →
        report.map BuildResult.source <+: sources ∧
        (project.failFast = false → report.map BuildResult.source = sources) ∧
        ∀ result ∈ report, ∃ before made after,
          project.Attempts dryRun sources start result.source before ∧
          before.run (project.buildFile dryRun result.source) = (made, after) ∧
          result.Records made := by
  intro sources
  obtain ⟨start, recordOf, logs, run⟩ := project.run_build dryRun routes session
  change _ = (match start.run (project.buildResults dryRun sources) with | _ => _) at run
  refine ⟨start, logs, fun fault final => ?_, fun report final h => ?_⟩
  · rw [run, ← buildResults_eq_error]
    rcases start.run (project.buildResults dryRun sources) with ⟨other | report, last⟩ <;> simp
  · rw [run] at h
    rcases made : start.run (project.buildResults dryRun sources) with ⟨other | reports, last⟩
    · rw [made] at h
      cases h
    · rw [made] at h
      cases h
      exact buildResults_eq_ok made

end

/-- Two modules, the first of which holds an escape that stands for no code point. -/
def strayEscape : Session :=
  .ofFiles [("a.ts", "x = '\\u\x7b110000\x7d'\n"), ("b.ts", "class B \x7b\x7d\n")]

/-- The second module has no wrapper and no result, although the build does not stop at failures. -/
theorem build_strayEscape :
    let project : Project := { root := {}, wrapper := {} }
    ∃ final, strayEscape.OnlyLogs final ∧
      strayEscape.run (project.build false [.ofText "a.ts", .ofText "b.ts"]) =
        (.error (.rejected "a.ts" (.escape .range)), final) := by
  intro project
  obtain ⟨start, logs, fails, -⟩ :=
    build_isolates project false [.ofText "a.ts", .ofText "b.ts"] strayEscape
  have sources : ((project.discover [.ofText "a.ts", .ofText "b.ts"] : SessionM (List Route)).run
      strayEscape).1 = [.ofText "a.ts", .ofText "b.ts"] := by
    have found : ((List.flatMapM project.modulesAt [.ofText "a.ts", .ofText "b.ts"] :
        SessionM (List Route)).run strayEscape).1.eraseDups =
          [.ofText "a.ts", .ofText "b.ts"] := by decide +kernel
    exact (congrArg (List.mergeSort · Route.le) found).trans
      (List.mergeSort_of_pairwise (by decide +kernel))
  have fault : project.wrapped start (.ofText "a.ts") =
      .error (.rejected "a.ts" (.escape .range)) := by
    have stray : project.wrapped strayEscape (.ofText "a.ts") =
        .error (.rejected "a.ts" (.escape .range)) := by decide +kernel
    rwa [wrapped, logs.text]
  obtain ⟨final, only, made⟩ := run_buildFile project start false (.ofText "a.ts")
  rw [fault] at made
  refine ⟨final, logs.trans only, (fails _ _).2 ⟨rfl, .ofText "a.ts", start, ?_, made⟩⟩
  rw [sources]
  exact .here

end Project

end ElementWrapper
