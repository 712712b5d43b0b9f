import ElementWrapper.Proofs.Build.Discovery
import ElementWrapper.Proofs.Build.Wrappers

/-!
Dry runs. A dry run makes the same wrappers as a build without putting them anywhere, so that it
changes nothing but records. It tells what the build will report as long as no wrapper belongs in
the place of a module: then every module has the same contents when a build gets to it as it had in
the beginning (`buildResults_foretold`).
-/

namespace ElementWrapper

namespace Session

variable {session final : Session} {route : Route} {bytes : List UInt8}

theorem read_of_file (stands : session.get? route = some (.file bytes)) :
    session.read route = .ok bytes := by
  obtain ⟨located, stands⟩ := exists_get?_target stands
  refine Except.bind_eq_ok.2 ⟨_, located, ?_⟩
  rw [FileTree.read, stands]

theorem text_of_file {other : Session} (here : session.get? route = some (.file bytes))
    (there : other.get? route = some (.file bytes)) : other.text route = session.text route := by
  rw [text, text, read_of_file here, read_of_file there]

/-- A file stays as it is if no wrapper that is put belongs in its place. -/
theorem Puts.get?_file {wrappers : List (Route × Text)} {failed : Prop}
    (h : session.Puts wrappers failed final) (stands : session.get? route = some (.file bytes))
    (none : session.lastAt wrappers (session.target route) = none) :
    final.get? route = some (.file bytes) := by
  obtain ⟨located, stands⟩ := exists_get?_target stands
  rw [get?, h.locate located]
  obtain same | ⟨empty, -⟩ := h.kept _ none
  · exact same.trans stands
  · cases stands.symm.trans empty

end Session

namespace Project

/-- No wrapper belongs in the place of a module. -/
def Apart (project : Project) (sources : List Route) (session : Session) : Prop :=
  ∀ source ∈ sources, ∀ output, project.outputRoute source = .ok output →
    ∀ other ∈ sources, session.target output ≠ session.target other

section

variable [Source.Recovery] {project : Project} {session final : Session} {source : Route}

/-! ## Records only -/

theorem run_buildFile_dry (project : Project) (session : Session) (source : Route) :
    ∃ next, session.OnlyLogs next ∧
      session.run (project.buildFile true source) = (project.wrapped session source, next) := by
  obtain ⟨next, only, run⟩ := run_buildFile project session true source
  refine ⟨next, only, run.trans ?_⟩
  cases project.wrapped session source with
  | error fault => rfl
  | ok wrapper => rfl

/-- The build of one module in a dry run changes nothing but records, even if it fails. -/
theorem buildResult_dry_onlyLogs (project : Project) (session : Session) (source : Route) :
    session.OnlyLogs (session.run (project.buildResult true source)).2 := by
  obtain ⟨next, only, run⟩ := project.run_buildFile_dry session source
  rw [run_buildResult, run]
  cases project.wrapped session source with
  | ok wrapper => exact only
  | error fault =>
    cases complaint : fault.complaint? with
    | none =>
      simp only [complaint]
      exact only
    | some text =>
      simp only [complaint]
      exact only.trans (.noted _ _)

/-- A run over modules does not either: the induction is on the modules, each of which leaves a
session with the same files. -/
theorem buildResults_dry_onlyLogs (project : Project) (session : Session) (sources : List Route) :
    session.OnlyLogs (session.run (project.buildResults true sources)).2 := by
  induction sources generalizing session with
  | nil => exact .refl session
  | cons first rest ih =>
    have once := project.buildResult_dry_onlyLogs session first
    rw [run_buildResults_cons]
    rcases made : session.run (project.buildResult true first) with ⟨fault | result, next⟩ <;>
      rw [made] at once
    · exact once
    · have more := ih next
      by_cases goes : result.isSuccess ∨ project.failFast = false
      · simp only [goes, if_true]
        rcases later : next.run (project.buildResults true rest) with ⟨fault | report, final⟩ <;>
          rw [later] at more <;> exact once.trans more
      · simp only [goes, if_false]
        exact once.trans (.noted _ _)

/-- A dry run changes nothing but records. -/
theorem build_dry_onlyLogs (project : Project) (routes : List Route) (session : Session) :
    session.OnlyLogs (session.run (project.build true routes)).2 := by
  have logs := project.started_onlyLogs routes session
  have more := project.buildResults_dry_onlyLogs (project.started routes session)
    (project.sources routes session)
  obtain ⟨recordOf, run⟩ := project.run_build_started true routes session
  rw [run]
  rcases made : (project.started routes session).run
    (project.buildResults true (project.sources routes session)) with ⟨fault | report, last⟩ <;>
      rw [made] at more
  · exact logs.trans more
  · exact (logs.trans more).trans (.noted _ _)

/-! ## The same report -/

/-- A build of a module that writes what it made gives what was made. -/
theorem buildFile_eq_wrapped {made : Except BuildFault (Route × Text)}
    (h : session.run (project.buildFile false source) = (made, final))
    (writes : ∀ e, made ≠ .error (.unwritable e)) (encodes : made ≠ .error .unencodable) :
    made = project.wrapped session source := by
  obtain ⟨next, -, run⟩ := run_buildFile project session false source
  rw [run] at h
  cases found : project.wrapped session source with
  | error fault =>
    rw [found] at h
    cases h
    rfl
  | ok wrapper =>
    obtain ⟨output, code⟩ := wrapper
    rw [found] at h
    rcases written : next.run (writeWrapper output code) with ⟨fault | _, last⟩ <;>
      simp only [written] at h <;> cases h
    · obtain rfl | ⟨e, rfl⟩ := writeWrapper_fault written
      · exact absurd rfl encodes
      · exact absurd rfl (writes e)
    · rfl

/-- A module that has a result in a build has the same one in a dry run, unless its wrapper could
not be written. -/
theorem buildResult_foretold {dry next : Session} {result : BuildResult}
    (same : dry.text source = session.text source)
    (h : session.run (project.buildResult false source) = (.ok result, next))
    (writes : ¬ ∃ e, (session.run (project.buildFile false source)).1 = .error (.unwritable e)) :
    (dry.run (project.buildResult true source)).1 = .ok result := by
  have alike : project.wrapped dry source = project.wrapped session source := by
    rw [wrapped, wrapped, same]
  obtain ⟨last, -, told⟩ := project.run_buildFile_dry dry source
  rw [run_buildResult] at h ⊢
  rw [told, alike]
  rcases built : session.run (project.buildFile false source) with ⟨fault | wrapper, after⟩ <;>
    rw [built] at h writes
  · cases complaint : fault.complaint? with
    | none =>
      simp only [complaint] at h
      cases h
    | some text =>
      have encodes : fault ≠ .unencodable := by
        rintro rfl
        cases complaint
      rw [← buildFile_eq_wrapped built (fun e failed => writes ⟨e, failed⟩)
        fun failed => encodes (Except.error.inj failed)]
      simp only [complaint] at h ⊢
      cases h
      rfl
  · rw [← buildFile_eq_wrapped built (by simp) (by simp)]
    cases h
    rfl

/-- What a build of a module puts is not in the place of another one. -/
theorem lastAt_eq_none {sources : List Route} {wrappers : List (Route × Text)} {other : Route}
    (apart : project.Apart sources session) (mem : source ∈ sources)
    (made : ∀ wrapper ∈ wrappers, project.wrapped session source = .ok wrapper)
    (among : other ∈ sources) : session.lastAt wrappers (session.target other) = none := by
  refine Option.eq_none_iff_forall_ne_some.2 fun code last => ?_
  obtain ⟨output, put, names⟩ := Session.mem_of_lastAt last
  exact apart source mem output (outputRoute_of_wrapped (made _ put)) other among names

/-- **What a dry run foretells**. A run over modules that writes all its wrappers, none of them in
the place of a module, reports what a dry run does in which the modules are the same. -/
theorem buildResults_foretold {sources : List Route} {dry : Session} {report : BuildReport}
    (files : ∀ source ∈ sources, ∃ bytes,
      session.get? source = some (.file bytes) ∧ dry.get? source = some (.file bytes))
    (apart : project.Apart sources session) (writes : ¬ project.WriteFails sources session)
    (h : session.run (project.buildResults false sources) = (.ok report, final)) :
    (dry.run (project.buildResults true sources)).1 = .ok report := by
  induction sources generalizing session dry report with
  | nil =>
    cases h
    rfl
  | cons first rest ih =>
    obtain ⟨bytes, here, there⟩ := files first List.mem_cons_self
    rw [run_buildResults_cons] at h ⊢
    rcases made : session.run (project.buildResult false first) with ⟨fault | result, next⟩ <;>
      rw [made] at h
    · cases h
    have same := buildResult_foretold (Session.text_of_file here there) made
      fun failed => writes (writeFails_cons.2 (.inl failed))
    have only := project.buildResult_dry_onlyLogs dry first
    rcases told : dry.run (project.buildResult true first) with ⟨_, after⟩
    rw [told] at same only
    obtain rfl : _ = Except.ok result := same
    by_cases goes : result.isSuccess ∨ project.failFast = false
    · simp only [goes, if_true] at h ⊢
      rcases later : next.run (project.buildResults false rest) with ⟨fault | reports, last⟩ <;>
        simp only [later] at h <;> cases h
      -- The wrapper that was put is in the place of none of the modules that come next, so that
      -- these are still the same in both runs.
      obtain ⟨wrappers, puts, wrapped, -⟩ := buildResult_puts made
      obtain ⟨treeOf, records, rfl⟩ := puts.rest
      have filesLater : ∀ source ∈ rest, ∃ bytes,
          ({ session with files := treeOf, records } : Session).get? source = some (.file bytes) ∧
            after.get? source = some (.file bytes) := by
        intro source mem
        obtain ⟨bytes, here, there⟩ := files source (List.mem_cons_of_mem first mem)
        have none := lastAt_eq_none apart List.mem_cons_self wrapped
          (List.mem_cons_of_mem first mem)
        exact ⟨bytes, puts.get?_file here none, (only.get? source).symm ▸ there⟩
      have apartLater : project.Apart rest { session with files := treeOf, records } :=
        fun source mem output named other among => apart source (List.mem_cons_of_mem first mem)
          output named other (List.mem_cons_of_mem first among)
      have foretold := ih filesLater apartLater
        (fun failed => writes (writeFails_cons.2 (.inr ⟨_, _, made, goes, failed⟩))) later
      rcases dryLater : after.run (project.buildResults true rest) with ⟨_, end'⟩
      rw [dryLater] at foretold
      obtain rfl : _ = Except.ok reports := foretold
      rfl
    · simp only [goes, if_false] at h ⊢
      cases h
      rfl

/-- **What a dry run is worth**. It changes nothing but records. If no wrapper belongs in the place
of a module, then a build that reports at all and writes what it made reports the same as the dry
run; it then has put the wrappers that it reports where they belong, and has changed nothing else
but to make directories on the way to them. -/
theorem build_dryRun (project : Project) (routes : List Route) (session : Session) :
    session.OnlyLogs (session.run (project.build true routes)).2 ∧
    ∀ report final, session.Named → project.Apart (project.sources routes session) session →
      session.run (project.build false routes) = (.ok report, final) →
      ¬ project.WriteFails (project.sources routes session) (project.started routes session) →
      (session.run (project.build true routes)).1 = .ok report ∧
        session.Puts report.wrappers False final := by
  refine ⟨project.build_dry_onlyLogs routes session, fun report final named apart h writes => ?_⟩
  obtain ⟨wrappers, puts, -, reported⟩ := build_puts h
  obtain ⟨rfl, -⟩ := reported report rfl
  refine ⟨?_, puts.imp writes⟩
  obtain ⟨recordOf, run⟩ := project.run_build_started false routes session
  obtain ⟨dryRecordOf, dryRun⟩ := project.run_build_started true routes session
  rw [run] at h
  rw [dryRun]
  rcases made : (project.started routes session).run
    (project.buildResults false (project.sources routes session)) with ⟨fault | reports, last⟩ <;>
      rw [made] at h <;> cases h
  obtain ⟨records, same⟩ := project.started_onlyLogs routes session
  have files : ∀ source ∈ project.sources routes session, ∃ bytes,
      (project.started routes session).get? source = some (.file bytes) ∧
        (project.started routes session).get? source = some (.file bytes) := by
    intro source mem
    obtain ⟨⟨bytes, stands⟩, -⟩ := of_mem_sources named mem
    have still := ((project.started_onlyLogs routes session).get? source).trans stands
    exact ⟨bytes, still, still⟩
  have apartStill : project.Apart (project.sources routes session)
      (project.started routes session) := by
    rw [same]
    exact apart
  have foretold := buildResults_foretold files apartStill writes made
  rcases dry : (project.started routes session).run
    (project.buildResults true (project.sources routes session)) with ⟨_, dryLast⟩
  rw [dry] at foretold
  obtain rfl : _ = Except.ok report := foretold
  rfl

end

/-- A module, and another one that gives a number for the name of an event. -/
def unfinished : Session := .ofFiles
  [("a.ts", "export\x7ba\x7dfrom'x'"), ("b.ts", "class B \x7b static eventOpen = 1 \x7d")]

/-- What is reported about the second module. -/
def unfinishedReport : Text :=
  "b.ts:1:29: " ++ Harvest.fieldMessage ++
    "\n> 1 | class B \x7b static eventOpen = 1 \x7d" ++
    "\n    |                              ^"

/-- Both runs report the wrapper of the first module, which goes to a new directory, and what is
wrong in the second one. -/
theorem build_dryRun_unfinished :
    let project : Project :=
      { root := {}, wrapper := {}, outDirectory := some (.ofText "new/dist") }
    let routes : List Route := [.ofText "a.ts", .ofText "b.ts"]
    ∃ report final, unfinished.Named ∧
      project.Apart (project.sources routes unfinished) unfinished ∧
      unfinished.run (project.build false routes) = (.ok report, final) ∧
      ¬ project.WriteFails (project.sources routes unfinished) (project.started routes unfinished) ∧
      report.map (·.outcome.map Prod.fst) =
        [.ok (.ofText "new/dist/a.js"), .error unfinishedReport] ∧
      (unfinished.run (project.build true routes)).1 = .ok report ∧
      unfinished.Puts report.wrappers False final := by
  intro project routes
  have sources : project.sources routes unfinished = routes :=
    sources_eq (by decide +kernel) (by decide +kernel)
  let start := project.started routes unfinished
  have named : unfinished.Named := ⟨by unfold FileTree.Named; decide +kernel, by decide +kernel⟩
  have apart : project.Apart (project.sources routes unfinished) unfinished := by
    rw [sources]
    have targets : ∀ source ∈ routes, ∀ other ∈ routes,
        (project.outputRoute source).toOption.map unfinished.target ≠
          some (unfinished.target other) := by decide +kernel
    intro source mem output names other among same
    exact targets source mem other among (by rw [names, ← same]; rfl)
  have writes : ¬ project.WriteFails (project.sources routes unfinished) start := by
    rw [sources]
    let next := (start.run (project.buildResult false (.ofText "a.ts"))).2
    have first : (start.run (project.buildFile false (.ofText "a.ts"))).1.map Prod.fst =
        .ok (.ofText "new/dist/a.js") := by decide +kernel
    have second : (next.run (project.buildFile false (.ofText "b.ts"))).1.map Prod.fst =
        .error (.rejected "b.ts" (.diagnostic
          { message := Harvest.fieldMessage, location := some ⟨1, 29⟩, filename := some "b.ts",
            source := some "class B \x7b static eventOpen = 1 \x7d" })) := by decide +kernel
    intro fails
    obtain ⟨e, failed⟩ | ⟨_, after, made, _, later⟩ := writeFails_cons.1 fails
    · rw [failed] at first
      cases first
    have onward : next = after := congrArg Prod.snd made
    rw [← onward] at later
    obtain ⟨e, failed⟩ | ⟨_, _, _, _, none⟩ := writeFails_cons.1 later
    · rw [failed] at second
      cases second
    · exact not_writeFails_nil none
  have built : (start.run (project.buildResults false (project.sources routes unfinished))).1.map
      (List.map (·.outcome.map Prod.fst)) =
        .ok [.ok (.ofText "new/dist/a.js"), .error unfinishedReport] := by
    rw [sources]
    decide +kernel
  obtain ⟨report, final, run, outcomes⟩ := exists_run_build built
  obtain ⟨told, puts⟩ :=
    (build_dryRun project routes unfinished).2 report final named apart run writes
  exact ⟨report, final, named, apart, run, writes, outcomes, told, puts⟩

end Project

end ElementWrapper
