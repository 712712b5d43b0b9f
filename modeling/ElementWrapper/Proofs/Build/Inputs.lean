import ElementWrapper.CommandLine.Run
import ElementWrapper.Proofs.Build.DryRun

/-!
What a build leaves of the modules it reads. No wrapper takes the place of its own module
(`target_ne_of_outputRoute`), but it may take that of another one: a module ends up with the last of
the wrappers that belong in its place, and is what it was if there is none (`build_keeps_modules`).
-/

namespace ElementWrapper

namespace Project

variable {project : Project} {session final : Session} {dryRun : Bool}
  {source output : Route}

/-! ## Loaded projects -/

/-- The project starts from the working directory, and no step of the way to its wrappers is
empty. -/
structure LoadedIn (project : Project) (session : Session) : Prop where
  start : (Route.ofText project.wrapper.start).steps = session.working
  outDirectory : ∀ directory, project.outDirectory = some directory → directory.IsClean

/-- The directory that a project starts from is none of the things that its description says. -/
theorem start_of_wrapperOf {data : Yaml.Value} {start root : Route} {wrapper : WrapperConfig}
    (h : wrapperOf data start root = .ok wrapper) : wrapper.start = start.text := by
  obtain ⟨templates, -, h⟩ := Except.bind_eq_ok.1 h
  obtain ⟨extension, -, h⟩ := Except.bind_eq_ok.1 h
  dsimp only at h
  split at h
  all_goals
    obtain ⟨settings, -, h⟩ := Except.bind_eq_ok.1 h
    split at h
    all_goals
      obtain ⟨rewrites, -, h⟩ := Except.bind_eq_ok.1 h
      cases h
      rfl

/-- What every description leaves as it is: the start, and that wrappers go below the root. -/
theorem ofDescription_eq_ok {data : Yaml.Value} {start root : Route}
    (h : ofDescription data start root = .ok project) :
    project.wrapper.start = start.text ∧
      ∀ directory, project.outDirectory = some directory →
        ∃ path, directory = root ++ Route.ofText path := by
  cases data with
  | mapping entries =>
    obtain ⟨wrapper, read, h⟩ := Except.bind_eq_ok.1 h
    cases h
    refine ⟨start_of_wrapperOf read, fun directory found => ?_⟩
    obtain ⟨path, -, rfl⟩ := Option.map_eq_some_iff.1 found
    exact ⟨path, rfl⟩
  | _ => cases h

/-- A loaded project is read from a description that stands where the file is found. -/
theorem load_eq (session : Session) (route : Route) :
    let start := Session.routeTo session.working
    let found := (fileOf route : SessionM Route).run session
    ((load route : SessionM (Except ProjectError Project)).run session).1 =
      if ((found.2.get? found.1).map Entry.kind).isNone then
        ofDescription (.mapping []) start found.1.parent
      else match found.2.text found.1 with
        | .error fault => .error (.unreadable fault)
        | .ok source =>
          readDescription found.1.name source >>= (ofDescription · start found.1.parent) := by
  intro start found
  have unfolded : (load route : SessionM (Except ProjectError Project)).run session =
      StateT.run (if ((found.2.get? found.1).map Entry.kind).isNone then
          return ofDescription (.mapping []) start found.1.parent
        else do match ← readText found.1 with
          | .error fault => return .error (.unreadable fault)
          | .ok source =>
            return readDescription found.1.name source >>= (ofDescription · start found.1.parent) :
          SessionM (Except ProjectError Project)) found.2 := rfl
  rw [unfolded]
  split
  · rfl
  · have read : (readText found.1 : SessionM (Except ReadFault (List Char))).run found.2 =
        (found.2.text found.1, found.2) := Session.run_readText found.2 found.1
    rw [StateT.run_bind, read]
    cases found.2.text found.1 <;> rfl

/-- Whatever its file holds, a project that was loaded starts from the working directory, and the
way to its wrappers has no empty step. -/
theorem LoadedIn.of_load (named : ∀ name ∈ session.working, Path.IsName name) {route : Route}
    (h : ((load route : SessionM (Except ProjectError Project)).run session).1 = .ok project) :
    project.LoadedIn session := by
  have loaded := load_eq session route
  obtain ⟨inner, file⟩ : ∃ inner : Route,
      ((fileOf route : SessionM Route).run session).1 =
        inner.resolve (Session.routeTo session.working) := ⟨_, rfl⟩
  rcases found : (fileOf route : SessionM Route).run session with ⟨_, next⟩
  rw [found] at file
  obtain rfl : _ = inner.resolve (Session.routeTo session.working) := file
  rw [h, found] at loaded
  have described : ∃ data, ofDescription data (Session.routeTo session.working)
      (inner.resolve (Session.routeTo session.working)).parent = .ok project := by
    dsimp only at loaded
    split at loaded
    · exact ⟨_, loaded.symm⟩
    · split at loaded
      · cases loaded
      · obtain ⟨data, -, described⟩ := Except.bind_eq_ok.1 loaded.symm
        exact ⟨data, described⟩
  obtain ⟨data, described⟩ := described
  obtain ⟨start, below⟩ := ofDescription_eq_ok described
  refine ⟨?_, fun directory found => ?_⟩
  · rw [start]
    exact Session.steps_ofText_routeTo named
  · obtain ⟨path, rfl⟩ := below directory found
    exact (Route.isClean_resolve _ _).parent.join (Route.isClean_ofText path)

/-- What the arguments say about a project changes nothing of that. -/
theorem LoadedIn.adjust (loaded : project.LoadedIn session) (settings : CommandLine.Settings) :
    (CommandLine.adjust settings project).LoadedIn session where
  start := loaded.start
  outDirectory := by
    intro directory found
    rw [CommandLine.adjust] at found
    dsimp only at found
    split at found
    · exact loaded.outDirectory directory found
    · cases found
      exact Route.isClean_ofText _

/-! ## Places of wrappers -/

theorem isClean_outputRoute (loaded : project.LoadedIn session) (clean : source.IsClean)
    (h : project.outputRoute source = .ok output) : output.IsClean := by
  obtain ⟨target, named, beside, apart, -⟩ := outputRoute_eq_ok h
  refine Route.IsClean.of_withSuffix? ?_ named
  cases place : project.outDirectory with
  | none => exact beside place ▸ clean
  | some directory =>
    obtain ⟨rest, rfl, rfl | ⟨components, below⟩⟩ := apart directory place
    · exact (loaded.outDirectory _ place).join (Route.isClean_ofText _)
    · exact (loaded.outDirectory _ place).join ((Route.isClean_resolve _ _).of_below? below)

/-- No wrapper belongs in the place of its own module. -/
theorem target_ne_of_outputRoute (named : session.Named) (loaded : project.LoadedIn session)
    (clean : source.IsClean) (h : project.outputRoute source = .ok output) :
    session.target output ≠ session.target source := by
  intro same
  have wrapperSteps := Session.steps_resolve named.working loaded.start
    (isClean_outputRoute loaded clean h)
  have moduleSteps := Session.steps_resolve named.working loaded.start clean
  obtain ⟨-, -, -, -, apart⟩ := outputRoute_eq_ok h
  exact apart
    (congrArg (Route.mk [Path.separator]) (wrapperSteps.trans (same.trans moduleSteps.symm)))

/-! ## The whole -/

theorem Attempts.mem [Source.Recovery] {sources : List Route} {before : Session}
    (h : project.Attempts dryRun sources session source before) : source ∈ sources := by
  induction h with
  | here => exact List.mem_cons_self
  | later _ _ _ ih => exact List.mem_cons_of_mem _ ih

theorem isClean_of_mem_sources {routes : List Route} (named : session.Named)
    (clean : ∀ route ∈ routes, route.IsClean) (mem : source ∈ project.sources routes session) :
    source.IsClean := by
  obtain ⟨-, route, among, way, rfl, names⟩ := of_mem_sources named mem
  exact fun empty => (List.mem_append.1 empty).elim (clean route among) fun inside =>
    (names _ inside).1 rfl

/-- What a build puts, if it is not a dry run. -/
theorem exists_puts [Source.Recovery] {routes : List Route}
    {outcome : Except BuildFault BuildReport}
    (h : session.run (project.build dryRun routes) = (outcome, final)) :
    let sources := project.sources routes session
    let start := project.started routes session
    ∃ wrappers failed, session.Puts wrappers failed final ∧
      (∀ wrapper ∈ wrappers, ∃ other before, project.Attempts dryRun sources start other before ∧
        project.wrapped before other = .ok wrapper) ∧
      ∀ report, outcome = .ok report → wrappers = if dryRun then [] else report.wrappers := by
  intro sources start
  cases dryRun with
  | true =>
    have only := project.build_dry_onlyLogs routes session
    rw [h] at only
    exact ⟨[], False, .of_onlyLogs only _, nofun, fun _ _ => rfl⟩
  | false =>
    obtain ⟨wrappers, puts, wrapped, reported⟩ := build_puts h
    exact ⟨wrappers, _, puts, wrapped, fun report returned => (reported report returned).1⟩

/-- **What a build leaves of the modules that it finds**. A module holds the last of the wrappers
that were put in its place, which are wrappers of other modules; if there is none, it holds what it
held before. -/
theorem build_keeps_modules [Source.Recovery] {routes : List Route}
    {outcome : Except BuildFault BuildReport}
    (named : session.Named) (loaded : project.LoadedIn session)
    (clean : ∀ route ∈ routes, route.IsClean)
    (h : session.run (project.build dryRun routes) = (outcome, final)) :
    let sources := project.sources routes session
    let start := project.started routes session
    ∃ wrappers : List (Route × Text),
      (∀ report, outcome = .ok report → wrappers = if dryRun then [] else report.wrappers) ∧
      ∀ source ∈ sources,
        match session.lastAt wrappers (session.target source) with
        | none => final.read source = session.read source
        | some code =>
          final.read source = .ok (Utf8.ofText code) ∧
          ∃ other ∈ sources, session.target other ≠ session.target source ∧
            ∃ before output, project.Attempts dryRun sources start other before ∧
              project.wrapped before other = .ok (output, code) ∧
              session.target output = session.target source := by
  intro sources start
  obtain ⟨wrappers, failed, puts, wrapped, reported⟩ := exists_puts h
  refine ⟨wrappers, reported, fun source mem => ?_⟩
  obtain ⟨⟨bytes, stands⟩, -⟩ := of_mem_sources named mem
  cases latest : session.lastAt wrappers (session.target source) with
  | none =>
    exact (Session.read_of_file (puts.get?_file stands latest)).trans
      (Session.read_of_file stands).symm
  | some code =>
    obtain ⟨located, -⟩ := Session.exists_get?_target stands
    obtain ⟨output, among, names⟩ := Session.mem_of_lastAt latest
    obtain ⟨other, before, attempts, made⟩ := wrapped _ among
    have otherClean := isClean_of_mem_sources named clean attempts.mem
    -- The wrapper belongs in the place of the module, hence not to a module in that place.
    refine ⟨?_, other, attempts.mem, fun same => ?_, before, output, attempts, made, names⟩
    · refine Except.bind_eq_ok.2 ⟨_, puts.locate located, ?_⟩
      rw [FileTree.read, (puts.put _ _ latest).2]
    · exact target_ne_of_outputRoute named loaded otherClean (outputRoute_of_wrapped made)
        (names.trans same.symm)

/-- A module, and another one with the name of its wrapper. -/
def displaced : Session := .ofFiles [("a.ts", "export\x7ba\x7dfrom'x'"), ("a.js", "b")]

/-- The wrapper of the first module takes the place of the second one. -/
theorem build_displaced :
    let project : Project :=
      { root := .ofText "/", wrapper := { componentsRoot := "/src/components" } }
    let routes : List Route := [.ofText "a.js", .ofText "a.ts"]
    let code : Text := "export \x7b a \x7d from \"x\";\n"
    displaced.Named ∧
    ((load (.ofText ".") : SessionM (Except ProjectError Project)).run displaced).1 = .ok project ∧
    (∀ route ∈ routes, route.IsClean) ∧
    ∃ report final, displaced.run (project.build false routes) = (.ok report, final) ∧
      .ofText "a.js" ∈ project.sources routes displaced ∧
      displaced.read (.ofText "a.js") = .ok (Utf8.ofText "b") ∧
      final.read (.ofText "a.js") = .ok (Utf8.ofText code) := by
  intro project routes code
  have named : displaced.Named := ⟨by unfold FileTree.Named; decide +kernel, by decide +kernel⟩
  have loads : ((load (.ofText ".") : SessionM (Except ProjectError Project)).run displaced).1 =
      .ok project := rfl
  have clean : ∀ route ∈ routes, route.IsClean := by unfold Route.IsClean; decide +kernel
  have sources : project.sources routes displaced = routes :=
    sources_eq (by decide +kernel) (by decide +kernel)
  have built : ((project.started routes displaced).run
      (project.buildResults false (project.sources routes displaced))).1.map
        BuildReport.wrappers = .ok [(.ofText "a.js", code)] := by
    rw [sources]
    decide +kernel
  obtain ⟨report, final, run, outcomes⟩ := exists_run_build built
  obtain ⟨wrappers, reported, kept⟩ :=
    build_keeps_modules named (.of_load named.working loads) clean run
  have mem : .ofText "a.js" ∈ project.sources routes displaced := by
    rw [sources]
    exact List.mem_cons_self
  have last : displaced.lastAt wrappers (displaced.target (.ofText "a.js")) = some code := by
    rw [show wrappers = report.wrappers from reported report rfl, outcomes]
    decide +kernel
  have there := kept (.ofText "a.js") mem
  rw [last] at there
  exact ⟨named, loads, clean, report, final, run, mem, by decide +kernel, there.1⟩

end Project

end ElementWrapper
