import ElementWrapper.Proofs.Build.Isolation
import ElementWrapper.Proofs.Build.Traces

/-!
What a report says about the run that it is from. `Project.leftBy` is the session in which a build
comes to a module, once it is done with those before it; `Project.Delivers` says that in such a
session the wrapper of a module is made and put where it belongs. A report is faithful to the run if
its results follow the modules, nothing comes after a failure that is to be the end, and a result is
a success just if the wrapper was delivered (`Project.Faithful`).
-/

namespace ElementWrapper

namespace Project

section

variable [Source.Recovery] (project : Project) (dryRun : Bool)

/-- The session that the builds of some modules leave, one after the other. -/
def leftBy (session : Session) (sources : List Route) : Session :=
  sources.foldl (fun session source => (session.run (project.buildResult dryRun source)).2) session

/-- In a session the wrapper of a module has a place, can be made and, unless it is a dry run, be
written. -/
structure Delivers (before : Session) (source output : Route) (code : Text) : Prop where
  placed : project.outputRoute source = .ok output
  made : ∃ text, before.text source = .ok text ∧
    transform project.wrapper source.text text = .ok code
  written : dryRun = false → (before.run (writeWrapper output code)).1 = .ok ()

end

/-! ## One module -/

/-- The records are nothing to the writing of a wrapper. -/
theorem run_writeWrapper_onlyLogs {session next : Session} (only : session.OnlyLogs next)
    (output : Route) (code : Text) :
    (next.run (writeWrapper output code)).1 = (session.run (writeWrapper output code)).1 := by
  obtain ⟨records, rfl⟩ := only
  rw [run_writeWrapper, run_writeWrapper, Session.makeDirectories_records]
  rcases session.run (makeDirectories output.parent : ExceptT FileError SessionM Unit) with
    ⟨e | _, made⟩
  · rfl
  · simp only [Session.locate]
    cases made.files.follow (if output.isRooted then [] else made.working) output.steps >>=
        (made.files.write · (Utf8.encode (code.toChars?.getD []))) with
    | error fault => rfl
    | ok files => by_cases surrogate : code.toChars? = none <;> simp [surrogate]

section

variable [Source.Recovery] {project : Project} {dryRun : Bool} {session next : Session}
  {source output : Route} {code : Text}

theorem wrapped_eq_ok : project.wrapped session source = .ok (output, code) ↔
    project.outputRoute source = .ok output ∧ ∃ text, session.text source = .ok text ∧
      transform project.wrapper source.text text = .ok code := by
  simp only [wrapped, ofStep, Except.bind_eq_ok, Except.mapError_eq_ok, Except.pure_eq_ok,
    Prod.mk.injEq]
  constructor
  · rintro ⟨_, place, text, read, _, made, rfl, rfl⟩
    exact ⟨place, text, read, made⟩
  · rintro ⟨place, text, read, made⟩
    exact ⟨output, place, text, read, code, made, rfl, rfl⟩

/-- The build of a module gives its wrapper just if that is delivered. -/
theorem buildFile_eq_ok :
    (session.run (project.buildFile dryRun source)).1 = .ok (output, code) ↔
      project.Delivers dryRun session source output code := by
  obtain ⟨next, only, run⟩ := project.run_buildFile session dryRun source
  have delivers : project.Delivers dryRun session source output code ↔
      project.wrapped session source = .ok (output, code) ∧
        (dryRun = false → (next.run (writeWrapper output code)).1 = .ok ()) := by
    rw [wrapped_eq_ok, run_writeWrapper_onlyLogs only]
    exact ⟨fun ⟨place, made, written⟩ => ⟨⟨place, made⟩, written⟩,
      fun ⟨⟨place, made⟩, written⟩ => ⟨place, made, written⟩⟩
  rw [run, delivers]
  rcases project.wrapped session source with fault | ⟨place, text⟩
  · simp
  · cases dryRun with
    | true => simp
    | false =>
      simp only [Except.ok.injEq, Prod.mk.injEq, Bool.false_eq_true, if_false, true_implies]
      rcases written : next.run (writeWrapper place text) with ⟨fault | _, last⟩
      · constructor
        · nofun
        · rintro ⟨⟨rfl, rfl⟩, succeeds⟩
          rw [written] at succeeds
          cases succeeds
      · constructor
        · intro same
          cases same
          exact ⟨⟨rfl, rfl⟩, by rw [written]⟩
        · rintro ⟨⟨rfl, rfl⟩, -⟩
          rfl

/-- What is reported about a module is a wrapper just if that is delivered. -/
theorem outcome_eq_ok {result : BuildResult}
    (h : session.run (project.buildResult dryRun source) = (.ok result, next)) :
    result.outcome = .ok (output, code) ↔ project.Delivers dryRun session source output code := by
  obtain ⟨-, made, after, built, records⟩ := buildResult_eq_ok h
  rw [← buildFile_eq_ok, built]
  cases made with
  | ok wrapper =>
    have same : result.outcome = .ok wrapper := records
    simp only [same, Except.ok.injEq]
  | error fault =>
    obtain ⟨complaint, -, failed⟩ := records
    simp [failed]

end

end Project

/-! ## A run over modules -/

theorem BuildResult.isSuccess_iff {result : BuildResult} :
    result.isSuccess ↔ ∃ output code, result.outcome = .ok (output, code) := by
  rw [isSuccess]
  cases result.outcome with
  | error complaint => simp [Except.isOk, Except.toBool]
  | ok wrapper => simpa [Except.isOk, Except.toBool] using ⟨_, _, rfl⟩

namespace BuildReport

variable {report : BuildReport} {result : BuildResult}

theorem failed_cons_of_success (h : result.isSuccess) :
    failed (result :: report) = failed report := by
  simp [failed, h]

theorem failed_cons_of_failure (h : result.isSuccess = false) :
    failed (result :: report) = result :: failed report := by
  simp [failed, h]

/-- A result is either a success or a failure. -/
theorem succeeded_append_failed_perm (report : BuildReport) :
    (report.succeeded ++ report.failed).Perm report :=
  List.filter_append_perm _ report

end BuildReport

namespace Project

section

variable [Source.Recovery] {project : Project} {dryRun : Bool} {session next final : Session}

/-- A report on some modules says what a run over them has done. -/
structure Faithful (project : Project) (dryRun : Bool) (sources : List Route) (session : Session)
    (report : BuildReport) : Prop where
  initial : report.map BuildResult.source <+: sources
  whole : report.map BuildResult.source = sources ∨
    project.failFast = true ∧ ∃ last ∈ report.getLast?, last.isSuccess = false
  lastFailed : project.failFast = true →
    report.failed = [] ∨ ∃ last ∈ report.getLast?, report.failed = [last]
  delivered : ∀ earlier result later, report = earlier ++ result :: later → ∀ output code,
    result.outcome = .ok (output, code) ↔ project.Delivers dryRun
      (project.leftBy dryRun session (earlier.map BuildResult.source)) result.source output code

namespace Faithful

theorem nil : project.Faithful dryRun [] session [] where
  initial := List.nil_prefix
  whole := .inl rfl
  lastFailed _ := .inl rfl
  delivered earlier _ _ none := by simp at none

variable {result : BuildResult} {rest : List Route} {report : BuildReport}

/-- What the results of the other modules say about the session after the first module, they say
about the session before it: a result after `earlier` comes in the session that the first module and
those of `earlier` have left. -/
theorem delivered_cons
    (made : session.run (project.buildResult dryRun result.source) = (.ok result, next))
    (h : ∀ earlier other later, report = earlier ++ other :: later → ∀ output code,
      other.outcome = .ok (output, code) ↔ project.Delivers dryRun
        (project.leftBy dryRun next (earlier.map BuildResult.source)) other.source output code) :
    ∀ earlier other later, result :: report = earlier ++ other :: later → ∀ output code,
      other.outcome = .ok (output, code) ↔ project.Delivers dryRun
        (project.leftBy dryRun session (earlier.map BuildResult.source)) other.source output code
  | [], _, _, rfl, output, code => outcome_eq_ok made
  | first :: earlier, other, later, same, output, code => by
    rw [List.cons_append, List.cons_eq_cons] at same
    obtain ⟨rfl, same⟩ := same
    have onward : project.leftBy dryRun session ((result :: earlier).map BuildResult.source) =
        project.leftBy dryRun next (earlier.map BuildResult.source) := by
      rw [List.map_cons, leftBy, List.foldl_cons, made, leftBy]
    rw [onward]
    exact h earlier other later same output code

/-- A failure that is to be the end is the last that is reported. -/
theorem stop (made : session.run (project.buildResult dryRun result.source) = (.ok result, next))
    (failed : result.isSuccess = false) (failFast : project.failFast = true) :
    project.Faithful dryRun (result.source :: rest) session [result] where
  initial := List.cons_prefix_cons.2 ⟨rfl, List.nil_prefix⟩
  whole := .inr ⟨failFast, result, rfl, failed⟩
  lastFailed _ := .inr ⟨result, rfl, BuildReport.failed_cons_of_failure failed⟩
  delivered := delivered_cons made fun earlier _ _ none => by simp at none

/-- Any other result is followed by those of the other modules. -/
theorem onward (made : session.run (project.buildResult dryRun result.source) = (.ok result, next))
    (goes : result.isSuccess ∨ project.failFast = false)
    (h : project.Faithful dryRun rest next report) :
    project.Faithful dryRun (result.source :: rest) session (result :: report) where
  initial := List.cons_prefix_cons.2 ⟨rfl, h.initial⟩
  whole := h.whole.imp (congrArg (result.source :: ·))
    fun ⟨failFast, last, mem, failed⟩ => ⟨failFast, last, List.mem_getLast?_cons mem, failed⟩
  lastFailed failFast := by
    have succeeds : result.isSuccess := goes.resolve_right (by simp [failFast])
    rw [BuildReport.failed_cons_of_success succeeds]
    exact (h.lastFailed failFast).imp_right
      fun ⟨last, mem, failed⟩ => ⟨last, List.mem_getLast?_cons mem, failed⟩
  delivered := delivered_cons made h.delivered

end Faithful

/-- **What a run over modules reports** is faithful. -/
theorem buildResults_faithful {sources : List Route} {report : BuildReport}
    (h : session.run (project.buildResults dryRun sources) = (.ok report, final)) :
    project.Faithful dryRun sources session report := by
  induction sources generalizing session report with
  | nil =>
    cases h
    exact .nil
  | cons first rest ih =>
    rw [run_buildResults_cons] at h
    rcases made : session.run (project.buildResult dryRun first) with ⟨fault | result, next⟩
    · rw [made] at h
      cases h
    · obtain ⟨rfl, -⟩ := buildResult_eq_ok made
      rw [made] at h
      by_cases goes : result.isSuccess ∨ project.failFast = false
      · simp only [goes, if_true] at h
        rcases later : next.run (project.buildResults dryRun rest) with ⟨fault | reports, last⟩ <;>
          simp only [later] at h <;> cases h
        exact .onward made goes (ih later)
      · simp only [goes, if_false] at h
        cases h
        obtain ⟨failed, failFast⟩ := not_or.1 goes
        exact .stop made (Bool.eq_false_iff.2 failed) (Bool.of_not_eq_false failFast)

/-- **What a report is worth**. The results of a build that reports at all follow the modules that
were found, in their order; they leave none out unless the build is to stop at a failure and the
last result is one. In such a build no other result is a failure. Each result is either among the
successes or among the failures, and it is a success just if in the session that the earlier modules
left the wrapper has a place, the module can be read and transformed, and the wrapper, unless it is
a dry run, can be written. -/
theorem build_report (project : Project) (dryRun : Bool) (routes : List Route) (session : Session)
    (report : BuildReport) (final : Session)
    (h : session.run (project.build dryRun routes) = (.ok report, final)) :
    let sources := project.sources routes session
    let start := project.started routes session
    session.OnlyLogs start ∧
    report.map BuildResult.source <+: sources ∧
    (report.map BuildResult.source = sources ∨
      project.failFast = true ∧ ∃ last ∈ report.getLast?, last.isSuccess = false) ∧
    (project.failFast = true →
      report.failed = [] ∨ ∃ last ∈ report.getLast?, report.failed = [last]) ∧
    (report.succeeded ++ report.failed).Perm report ∧
    (∀ result ∈ report, (result ∈ report.succeeded ↔ result.isSuccess) ∧
      (result ∈ report.failed ↔ ¬ result.isSuccess)) ∧
    ∀ earlier result later, report = earlier ++ result :: later →
      let before := project.leftBy dryRun start (earlier.map BuildResult.source)
      result.isSuccess ↔ ∃ output text code,
        project.outputRoute result.source = .ok output ∧
        before.text result.source = .ok text ∧
        transform project.wrapper result.source.text text = .ok code ∧
        (dryRun = false → (before.run (writeWrapper output code)).1 = .ok ()) := by
  intro sources start
  obtain ⟨recordOf, run⟩ := project.run_build_started dryRun routes session
  rcases made : start.run (project.buildResults dryRun sources) with ⟨fault | reports, last⟩
  · rw [run, made] at h
    cases h
  obtain rfl : reports = report := by
    rw [run, made] at h
    exact Except.ok.inj (congrArg Prod.fst h)
  have faithful := buildResults_faithful made
  refine ⟨project.started_onlyLogs routes session, faithful.initial, faithful.whole,
    faithful.lastFailed, reports.succeeded_append_failed_perm, fun result mem => ?_,
    fun earlier result later split => ?_⟩
  · simp [BuildReport.succeeded, BuildReport.failed, mem]
  · rw [BuildResult.isSuccess_iff]
    constructor
    · rintro ⟨output, code, delivered⟩
      obtain ⟨placed, ⟨text, read, made⟩, written⟩ :=
        (faithful.delivered earlier result later split output code).1 delivered
      exact ⟨output, text, code, placed, read, made, written⟩
    · rintro ⟨output, text, code, placed, read, made, written⟩
      exact ⟨output, code, (faithful.delivered earlier result later split output code).2
        ⟨placed, ⟨text, read, made⟩, written⟩⟩

end

/-- Three modules, the second of which is not finished. -/
def halfway : Session := .ofFiles
  [("a.ts", "export\x7ba\x7dfrom'x'"), ("b.ts", "class B \x7b"), ("c.ts", "class C \x7b\x7d")]

/-- A build that is to stop at a failure has a success, a failure and no result for the third
module. -/
theorem build_report_halfway :
    let project : Project := { root := {}, wrapper := {}, failFast := true }
    let routes : List Route := [.ofText "a.ts", .ofText "b.ts", .ofText "c.ts"]
    ∃ first last final,
      halfway.run (project.build false routes) = (.ok [first, last], final) ∧
      first.source = .ofText "a.ts" ∧ last.source = .ofText "b.ts" ∧
      project.sources routes halfway = routes ∧
      BuildReport.failed [first, last] = [last] ∧
      ∃ output text code, project.outputRoute (.ofText "a.ts") = .ok output ∧
        (project.started routes halfway).text (.ofText "a.ts") = .ok text ∧
        transform project.wrapper (Route.ofText "a.ts").text text = .ok code ∧
        ((project.started routes halfway).run (writeWrapper output code)).1 = .ok () := by
  intro project routes
  have sources : project.sources routes halfway = routes :=
    sources_eq (by decide +kernel) (by decide +kernel)
  have built : ((project.started routes halfway).run
      (project.buildResults false (project.sources routes halfway))).1.map
        (List.map fun result => (result.source, result.isSuccess)) =
      .ok [(.ofText "a.ts", true), (.ofText "b.ts", false)] := by
    rw [sources]
    decide +kernel
  obtain ⟨report, final, run, outcomes⟩ := exists_run_build built
  obtain ⟨first, rest, rfl, firstIs, others⟩ := List.map_eq_cons_iff.1 outcomes
  obtain ⟨last, none, rfl, lastIs, none'⟩ := List.map_eq_cons_iff.1 others
  obtain rfl := List.map_eq_nil_iff.1 none'
  obtain ⟨firstSource, succeeds⟩ := Prod.mk.inj firstIs
  obtain ⟨lastSource, fails⟩ := Prod.mk.inj lastIs
  obtain ⟨-, -, -, lastFailed, -, partition, delivered⟩ :=
    build_report project false routes halfway [first, last] final run
  refine ⟨first, last, final, run, firstSource, lastSource, sources, ?_, ?_⟩
  · have among : last ∈ BuildReport.failed [first, last] :=
      (partition last (.tail _ (.head _))).2.2 (by simp [fails])
    obtain none | ⟨other, mem, only⟩ := lastFailed rfl
    · rw [none] at among
      cases among
    · obtain rfl : last = other := Option.some.inj mem
      exact only
  · obtain ⟨output, text, code, placed, read, made, written⟩ :=
      (delivered [] first [last] rfl).1 succeeds
    rw [firstSource] at placed read made
    exact ⟨output, text, code, placed, read, made, written rfl⟩

end Project

end ElementWrapper
