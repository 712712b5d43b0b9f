import ElementWrapper.Proofs.Build.Isolation
import ElementWrapper.Proofs.Build.Traces
import ElementWrapper.Proofs.Files.Targets

/-!
Where the wrappers of a build end up. A run over modules puts one wrapper after the other in the
place that its route names, so that of all wrappers with one target the last is there in the end
(`buildResults_puts`). A wrapper that a build reports is in its place just if no other one has been
put there afterwards (`build_wrapper_kept`).
-/

namespace ElementWrapper

/-- A text that has characters is the text of these. -/
theorem Text.toChars?_eq_some {text : Text} {chars : List Char} (h : text.toChars? = some chars) :
    text = ofChars chars := by
  induction text generalizing chars with
  | nil =>
    cases h
    rfl
  | cons c text ih =>
    cases c with
    | surrogate offset => cases h
    | scalar c =>
      rw [toChars?, List.mapM_cons] at h
      obtain ⟨_, ⟨⟩, rest⟩ := Option.bind_eq_some_iff.1 h
      obtain ⟨others, found, ⟨⟩⟩ := Option.bind_eq_some_iff.1 rest
      rw [ih found]
      rfl

namespace Utf8

/-- Different characters have different bytes. -/
theorem encode_injective {first second : List Char} (h : encode first = encode second) :
    first = second := by
  have bytes : first.utf8Encode = second.utf8Encode := congrArg List.toByteArray h
  rw [← String.toByteArray_ofList, ← String.toByteArray_ofList, String.toByteArray_inj] at bytes
  exact String.ofList_injective bytes

/-- The bytes of a text; a text with a surrogate has none. -/
def ofText (text : Text) : List UInt8 := encode (text.toChars?.getD [])

theorem ofText_injective {first second : Text} (one : first.toChars? ≠ none)
    (two : second.toChars? ≠ none) (h : ofText first = ofText second) : first = second := by
  obtain ⟨chars, ofFirst⟩ := Option.ne_none_iff_exists'.1 one
  obtain ⟨others, ofSecond⟩ := Option.ne_none_iff_exists'.1 two
  rw [ofText, ofText, ofFirst, ofSecond] at h
  have same : chars = others := encode_injective h
  rw [Text.toChars?_eq_some ofFirst, Text.toChars?_eq_some ofSecond, same]

end Utf8

/-- The wrapper of a module, if it has one. -/
def BuildResult.wrappers (result : BuildResult) : List (Route × Text) :=
  result.outcome.toOption.toList

/-- The wrappers of modules in the order in which they were made. -/
def BuildReport.wrappers (report : BuildReport) : List (Route × Text) :=
  report.flatMap BuildResult.wrappers

theorem BuildReport.wrappers_eq (report : BuildReport) :
    report.wrappers = (report.map BuildResult.outcome).flatMap (·.toOption.toList) := by
  rw [List.flatMap_map]
  rfl

/-- A build gets to a module whose wrapper cannot be written. -/
def Project.WriteFails [Source.Recovery] (project : Project) (sources : List Route)
    (session : Session) : Prop :=
  ∃ source before e, project.Attempts false sources session source before ∧
    (before.run (project.buildFile false source)).1 = .error (.unwritable e)

/-- A build gets to a module that has the wrapper. -/
def Project.Made [Source.Recovery] (project : Project) (sources : List Route) (session : Session)
    (wrapper : Route × Text) : Prop :=
  ∃ source before, project.Attempts false sources session source before ∧
    project.wrapped before source = .ok wrapper

theorem Project.not_writeFails_nil [Source.Recovery] {project : Project} {session : Session} :
    ¬ project.WriteFails [] session :=
  fun ⟨_, _, _, attempts, _⟩ => nomatch attempts

/-- A run comes to a wrapper that cannot be written with its first module, or after it. -/
theorem Project.writeFails_cons [Source.Recovery] {project : Project} {first : Route}
    {rest : List Route} {session : Session} :
    project.WriteFails (first :: rest) session ↔
      (∃ e, (session.run (project.buildFile false first)).1 = .error (.unwritable e)) ∨
      ∃ result next, session.run (project.buildResult false first) = (.ok result, next) ∧
        (result.isSuccess ∨ project.failFast = false) ∧ project.WriteFails rest next := by
  constructor
  · rintro ⟨source, before, e, attempts, failed⟩
    cases attempts with
    | here => exact .inl ⟨e, failed⟩
    | later made goes attempts =>
      exact .inr ⟨_, _, made, goes, source, before, e, attempts, failed⟩
  · rintro (⟨e, failed⟩ | ⟨result, next, made, goes, source, before, e, attempts, failed⟩)
    · exact ⟨first, session, e, .here, failed⟩
    · exact ⟨source, before, e, .later made goes attempts, failed⟩

namespace Session

/-- The last of the wrappers that belong in a place. -/
def lastAt (session : Session) (wrappers : List (Route × Text)) (place : Place) : Option Text :=
  wrappers.reverse.findSome? fun wrapper =>
    if session.target wrapper.1 = place then some wrapper.2 else none

/-- A session in which wrappers are put one after the other where they belong, with the directories
on the way to them. If a wrapper could not be put, other directories may have been made. -/
structure Puts (session : Session) (wrappers : List (Route × Text)) (failed : Prop)
    (final : Session) : Prop where
  rest : ∃ files records, final = { session with files, records }
  put : ∀ place code, session.lastAt wrappers place = some code →
    session.files.get? place ≠ some .directory ∧
      final.files.get? place = some (.file (Utf8.ofText code))
  kept : ∀ place, session.lastAt wrappers place = none →
    final.files.get? place = session.files.get? place ∨
      session.files.get? place = none ∧ final.files.get? place = some .directory ∧
        (failed ∨ ∃ wrapper ∈ wrappers, session.OnWay wrapper.1.parent place)
  leads : ∀ wrapper ∈ wrappers, final.locate wrapper.1 = .ok (session.target wrapper.1)

section

variable {session next final : Session} {wrappers later : List (Route × Text)} {failed : Prop}

theorem lastAt_append (place : Place) :
    session.lastAt (wrappers ++ later) place =
      (session.lastAt later place).or (session.lastAt wrappers place) := by
  rw [lastAt, List.reverse_append, List.findSome?_append]
  rfl

theorem lastAt_singleton (wrapper : Route × Text) (place : Place) :
    session.lastAt [wrapper] place =
      if session.target wrapper.1 = place then some wrapper.2 else none := by
  rw [lastAt, List.reverse_singleton, List.findSome?_cons]
  split <;> simp_all

theorem mem_of_lastAt {place : Place} {code : Text}
    (h : session.lastAt wrappers place = some code) :
    ∃ output, (output, code) ∈ wrappers ∧ session.target output = place := by
  obtain ⟨⟨output, other⟩, mem, found⟩ := List.exists_of_findSome?_eq_some h
  split at found
  · next names =>
    cases found
    exact ⟨output, List.mem_reverse.1 mem, names⟩
  · cases found

theorem exists_lastAt (session : Session) {output : Route} {code : Text}
    (mem : (output, code) ∈ wrappers) :
    ∃ last, session.lastAt wrappers (session.target output) = some last := by
  refine Option.isSome_iff_exists.1 (List.findSome?_isSome_iff.2 ⟨_, List.mem_reverse.2 mem, ?_⟩)
  simp

namespace Puts

theorem of_onlyLogs (only : session.OnlyLogs final) (failed : Prop) :
    session.Puts [] failed final where
  rest := by
    obtain ⟨records, rfl⟩ := only
    exact ⟨session.files, records, rfl⟩
  put _ _ := nofun
  kept place _ := .inl (congrArg (·.get? place) only.files)
  leads := nofun

theorem of_grows {files : FileTree} (grows : session.files.Grows files) :
    session.Puts [] True { session with files } where
  rest := ⟨files, session.records, rfl⟩
  put _ _ := nofun
  kept place _ := (grows place).imp_right fun ⟨empty, made⟩ => ⟨empty, made, .inl trivial⟩
  leads := nofun

/-- One wrapper is put in its place once the directories on the way to it have grown. -/
theorem of_write {grown files : FileTree} {output : Route} {code : Text}
    (grows : session.files.Grows grown)
    (along : session.MakesAlong output.parent { session with files := grown })
    (written : ({ session with files := grown } : Session).locate output >>=
      (grown.write · (Utf8.ofText code)) = .ok files) :
    session.Puts [(output, code)] False { session with files } := by
  obtain ⟨place, located, written⟩ := Except.bind_eq_ok.1 written
  obtain rfl : place = session.target output := FileTree.follow_eq_foldl located
  obtain ⟨free, put, others⟩ := FileTree.write_eq_ok written
  refine ⟨⟨files, session.records, rfl⟩, fun place last latest => ?_, fun place none => ?_,
    fun wrapper mem => ?_⟩
  · rw [lastAt_singleton] at latest
    split at latest
    · next names =>
      obtain rfl := names
      cases latest
      exact ⟨fun directory => free (grows.get?_directory directory), put⟩
    · cases latest
  · rw [lastAt_singleton] at none
    split at none
    · cases none
    · next ne =>
      rw [others place (Ne.symm ne)]
      obtain same | ⟨empty, made⟩ := grows place
      · exact .inl same
      · refine .inr ⟨empty, made, .inr ⟨_, List.mem_singleton_self _, ?_⟩⟩
        obtain kept | onWay := along place
        · cases made.symm.trans (kept.trans empty)
        · exact onWay
  · obtain rfl := List.mem_singleton.1 mem
    exact FileTree.follow_mono (fun _ => FileTree.write_keeps_directory written) located

theorem imp {broken : Prop} (h : session.Puts wrappers failed final) (weaker : failed → broken) :
    session.Puts wrappers broken final where
  rest := h.rest
  put := h.put
  kept place none := (h.kept place none).imp_right (.imp_right (.imp_right (.imp_left weaker)))
  leads := h.leads

theorem get?_directory (h : session.Puts wrappers failed final) {place : Place}
    (directory : session.files.get? place = some .directory) :
    final.files.get? place = some .directory := by
  cases last : session.lastAt wrappers place with
  | some code => exact absurd directory (h.put place code last).1
  | none =>
    obtain same | ⟨-, made, -⟩ := h.kept place last
    · exact same.trans directory
    · exact made

theorem locate (h : session.Puts wrappers failed final) {route : Route} {place : Place}
    (located : session.locate route = .ok place) : final.locate route = .ok place := by
  obtain ⟨files, records, rfl⟩ := h.rest
  exact FileTree.follow_mono (fun _ => h.get?_directory) located

/-- One session after another: of the wrappers in one place the later ones count, and a directory
that was made on the way stays. -/
theorem trans (one : session.Puts wrappers failed next) (two : next.Puts later failed final) :
    session.Puts (wrappers ++ later) failed final := by
  obtain ⟨files, records, rfl⟩ := one.rest
  refine ⟨two.rest, fun place code last => ?_, fun place none => ?_, fun wrapper mem => ?_⟩
  · rw [lastAt_append] at last
    -- The last wrapper is one of the later ones, or no later one is put in the place.
    obtain again | ⟨none, once⟩ := Option.or_eq_some_iff.1 last
    · obtain ⟨free, put⟩ := two.put place code again
      exact ⟨fun directory => free (one.get?_directory directory), put⟩
    · obtain ⟨free, put⟩ := one.put place code once
      refine ⟨free, ?_⟩
      obtain same | ⟨empty, -⟩ := two.kept place none
      · exact same.trans put
      · cases put.symm.trans empty
  · rw [lastAt_append] at none
    obtain ⟨second, first⟩ := Option.or_eq_none_iff.1 none
    -- A directory is made at most once, since it is there ever after.
    obtain same | ⟨empty, made, way⟩ := two.kept place second
    · rw [same]
      refine (one.kept place first).imp_right (.imp_right (.imp_right (.imp_right ?_)))
      rintro ⟨wrapper, mem, onWay⟩
      exact ⟨wrapper, List.mem_append_left _ mem, onWay⟩
    · obtain kept | ⟨-, directory, -⟩ := one.kept place first
      · refine .inr ⟨kept ▸ empty, made, way.imp_right ?_⟩
        rintro ⟨wrapper, mem, onWay⟩
        exact ⟨wrapper, List.mem_append_right _ mem, onWay⟩
      · cases directory.symm.trans empty
  · obtain first | second := List.mem_append.1 mem
    · exact two.locate (one.leads wrapper first)
    · exact two.leads wrapper second

theorem noted (h : session.Puts wrappers failed final) (record : LogRecord) :
    session.Puts wrappers failed (final.noted record) := by
  have both := h.trans (.of_onlyLogs (.noted final record) failed)
  rwa [List.append_nil] at both

/-- The wrapper that was the last to be put in a place can be read there. -/
theorem read (h : session.Puts wrappers failed final) {output : Route} {code : Text}
    (mem : (output, code) ∈ wrappers) {last : Text}
    (latest : session.lastAt wrappers (session.target output) = some last) :
    final.read output = .ok (Utf8.ofText last) := by
  refine Except.bind_eq_ok.2 ⟨_, h.leads _ mem, ?_⟩
  rw [FileTree.read, (h.put _ _ latest).2]

end Puts

end

end Session

namespace Project

variable {project : Project} {session next final : Session} {source output : Route} {code : Text}

/-! ## One module -/

/-- A run that writes a wrapper puts it in its place, unless it fails to write. -/
theorem writeWrapper_puts {result : Except BuildFault Unit}
    (h : session.run (writeWrapper output code) = (result, final)) :
    (∃ e, result = .error (.unwritable e)) ∧ session.Puts [] True final ∨
    result = (if code.toChars? = none then .error .unencodable else .ok ()) ∧
      session.Puts [(output, code)] False final := by
  rw [run_writeWrapper] at h
  have makes := session.makeDirectories_makes output.parent
  have along := session.makeDirectories_along output.parent
  rcases made : session.run (makeDirectories output.parent : ExceptT FileError SessionM Unit) with
    ⟨e | _, next⟩ <;> rw [made] at h makes along
  · obtain ⟨grown, rfl, grows⟩ := makes.grows
    cases h
    exact .inl ⟨⟨e, rfl⟩, .of_grows grows⟩
  · obtain ⟨grown, rfl, grows⟩ := makes.grows
    dsimp only at h
    cases written : ({ session with files := grown } : Session).locate output >>=
        (grown.write · (Utf8.ofText code)) with
    | error fault =>
      rw [Utf8.ofText] at written
      rw [written] at h
      cases h
      exact .inl ⟨⟨_, rfl⟩, .of_grows grows⟩
    | ok files =>
      have puts := Session.Puts.of_write grows along written
      rw [Utf8.ofText] at written
      simp only [written] at h
      split at h
      · next surrogate =>
        cases h
        exact .inr ⟨(if_pos surrogate).symm, puts⟩
      · next encodable =>
        cases h
        exact .inr ⟨(if_neg encodable).symm, puts.noted _⟩

section

variable [Source.Recovery]

/-- What a build of a module puts: its wrapper, if it gets as far as writing it. -/
theorem buildFile_puts {made : Except BuildFault (Route × Text)}
    (h : session.run (project.buildFile false source) = (made, final)) :
    ∃ wrappers, session.Puts wrappers (∃ e, made = .error (.unwritable e)) final ∧
      (∀ wrapper ∈ wrappers, project.wrapped session source = .ok wrapper) ∧
      (made ≠ .error .unencodable →
        wrappers = made.toOption.toList ∧ ∀ wrapper ∈ wrappers, wrapper.2.toChars? ≠ none) := by
  obtain ⟨next, only, run⟩ := run_buildFile project session false source
  rw [run] at h
  cases found : project.wrapped session source with
  | error fault =>
    rw [found] at h
    cases h
    exact ⟨[], .of_onlyLogs only _, nofun, fun _ => ⟨rfl, nofun⟩⟩
  | ok wrapper =>
    obtain ⟨output, code⟩ := wrapper
    rw [found] at h
    have start := Session.Puts.of_onlyLogs only (∃ e, made = .error (.unwritable e))
    rcases written : next.run (writeWrapper output code) with ⟨fault | _, last⟩ <;>
      simp only [written] at h <;> cases h
    · obtain ⟨⟨e, failed⟩, puts⟩ | ⟨result, puts⟩ := writeWrapper_puts written
      · cases failed
        exact ⟨[], start.trans (puts.imp fun _ => ⟨e, rfl⟩), nofun, fun _ => ⟨rfl, nofun⟩⟩
      · refine ⟨[(output, code)], start.trans (puts.imp False.elim), ?_, fun encodable => ?_⟩
        · rintro wrapper (_ | ⟨_, ⟨⟩⟩)
          rfl
        · split at result
          · cases result
            contradiction
          · cases result
    · obtain ⟨⟨e, failed⟩, -⟩ | ⟨result, puts⟩ := writeWrapper_puts written
      · cases failed
      · refine ⟨[(output, code)], start.trans (puts.imp False.elim), ?_, fun _ => ⟨rfl, ?_⟩⟩
        · rintro wrapper (_ | ⟨_, ⟨⟩⟩)
          rfl
        · rintro wrapper (_ | ⟨_, ⟨⟩⟩) surrogate
          rw [if_pos surrogate] at result
          cases result

/-! ## One module after the other -/

/-- What the build of a module puts is what its result reports, unless the run ends there. -/
theorem buildResult_puts {outcome : Except BuildFault BuildResult}
    (h : session.run (project.buildResult false source) = (outcome, final)) :
    ∃ wrappers, session.Puts wrappers
        (∃ e, (session.run (project.buildFile false source)).1 = .error (.unwritable e)) final ∧
      (∀ wrapper ∈ wrappers, project.wrapped session source = .ok wrapper) ∧
      ∀ result, outcome = .ok result →
        wrappers = result.wrappers ∧ ∀ wrapper ∈ wrappers, wrapper.2.toChars? ≠ none := by
  rw [run_buildResult] at h
  rcases built : session.run (project.buildFile false source) with ⟨fault | wrapper, next⟩ <;>
    rw [built] at h <;> obtain ⟨wrappers, puts, made, encoded⟩ := buildFile_puts built
  · cases complaint : fault.complaint? with
    | some text =>
      simp only [complaint] at h
      cases h
      refine ⟨wrappers, puts.noted _, made, ?_⟩
      rintro _ ⟨⟩
      refine encoded ?_
      rintro ⟨⟩
      cases complaint
    | none =>
      simp only [complaint] at h
      cases h
      exact ⟨wrappers, puts, made, nofun⟩
  · cases h
    refine ⟨wrappers, puts, made, ?_⟩
    rintro _ ⟨⟩
    exact encoded nofun

/-- What a run over modules puts: the wrappers that it reports, or some wrappers of modules that it
gets to if it has no report. -/
theorem buildResults_puts {sources : List Route} {outcome : Except BuildFault BuildReport}
    (h : session.run (project.buildResults false sources) = (outcome, final)) :
    ∃ wrappers, session.Puts wrappers (project.WriteFails sources session) final ∧
      (∀ wrapper ∈ wrappers, project.Made sources session wrapper) ∧
      ∀ report, outcome = .ok report →
        wrappers = report.wrappers ∧ ∀ wrapper ∈ wrappers, wrapper.2.toChars? ≠ none := by
  induction sources generalizing session outcome final with
  | nil =>
    cases h
    refine ⟨[], .of_onlyLogs (.refl _) _, nofun, ?_⟩
    rintro _ ⟨⟩
    exact ⟨rfl, nofun⟩
  | cons first rest ih =>
    rw [run_buildResults_cons] at h
    rcases once : session.run (project.buildResult false first) with ⟨fault | result, next⟩ <;>
      rw [once] at h <;> obtain ⟨wrappers, puts, wrapped, reported⟩ := buildResult_puts once
    all_goals
      have made : ∀ wrapper ∈ wrappers, project.Made (first :: rest) session wrapper :=
        fun wrapper mem => ⟨first, session, .here, wrapped wrapper mem⟩
      have puts : session.Puts wrappers (project.WriteFails (first :: rest) session) next :=
        puts.imp fun failed => writeFails_cons.2 (.inl failed)
    · cases h
      exact ⟨wrappers, puts, made, nofun⟩
    · obtain ⟨rfl, encoded⟩ := reported result rfl
      by_cases goes : result.isSuccess ∨ project.failFast = false
      · simp only [goes, if_true] at h
        rcases later : next.run (project.buildResults false rest) with ⟨fault | report, last⟩ <;>
          simp only [later] at h <;> cases h <;>
          obtain ⟨others, putsLater, madeLater, reportedLater⟩ := ih later
        all_goals
          have both := puts.trans (putsLater.imp
            fun failed => writeFails_cons.2 (.inr ⟨result, next, once, goes, failed⟩))
          have all := List.forall_mem_append.2 ⟨made, fun wrapper mem =>
            let ⟨source, before, attempts, found⟩ := madeLater wrapper mem
            ⟨source, before, .later once goes attempts, found⟩⟩
        · exact ⟨_, both, all, nofun⟩
        · obtain ⟨rfl, encodedLater⟩ := reportedLater report rfl
          refine ⟨_, both, all, ?_⟩
          rintro _ ⟨⟩
          exact ⟨rfl, List.forall_mem_append.2 ⟨encoded, encodedLater⟩⟩
      · simp only [goes, if_false] at h
        cases h
        refine ⟨_, puts.noted _, made, ?_⟩
        rintro _ ⟨⟩
        exact ⟨(List.append_nil _).symm, encoded⟩

/-! ## The whole -/

/-- What a build puts, and what it reports of that. -/
theorem build_puts {routes : List Route} {outcome : Except BuildFault BuildReport}
    (h : session.run (project.build false routes) = (outcome, final)) :
    let sources := project.sources routes session
    let start := project.started routes session
    ∃ wrappers, session.Puts wrappers (project.WriteFails sources start) final ∧
      (∀ wrapper ∈ wrappers, project.Made sources start wrapper) ∧
      ∀ report, outcome = .ok report →
        wrappers = report.wrappers ∧ ∀ wrapper ∈ wrappers, wrapper.2.toChars? ≠ none := by
  intro sources start
  have logs := project.started_onlyLogs routes session
  obtain ⟨recordOf, run⟩ := project.run_build_started false routes session
  rw [run] at h
  rcases made : start.run (project.buildResults false sources) with ⟨fault | report, last⟩ <;>
    rw [made] at h <;> cases h <;>
    obtain ⟨wrappers, puts, wrapped, reported⟩ := buildResults_puts made
  all_goals replace puts := (Session.Puts.of_onlyLogs logs _).trans puts
  · exact ⟨wrappers, puts, wrapped, nofun⟩
  · exact ⟨wrappers, puts.noted _, wrapped, reported⟩

/-- **Which wrappers of a build are there in the end**. The file that a reported wrapper belongs in
holds the last of the wrappers that belong in the same place, so that it holds the reported one just
if that is the same text. -/
theorem build_wrapper_kept {routes : List Route} {report : BuildReport} {result : BuildResult}
    (h : session.run (project.build false routes) = (.ok report, final)) (mem : result ∈ report)
    (made : result.outcome = .ok (output, code)) :
    code.toChars? ≠ none ∧
    ∃ last, session.lastAt report.wrappers (session.target output) = some last ∧
      final.read output = .ok (Utf8.ofText last) ∧
      (final.read output = .ok (Utf8.ofText code) ↔ last = code) := by
  obtain ⟨_, puts, -, reported⟩ := build_puts h
  obtain ⟨rfl, encoded⟩ := reported report rfl
  have among : (output, code) ∈ report.wrappers := by
    refine List.mem_flatMap.2 ⟨result, mem, ?_⟩
    rw [BuildResult.wrappers, made]
    exact List.mem_singleton_self _
  obtain ⟨last, latest⟩ := session.exists_lastAt among
  obtain ⟨other, alsoAmong, -⟩ := Session.mem_of_lastAt latest
  have read := puts.read among latest
  refine ⟨encoded _ among, last, latest, read, fun same => ?_, fun same => same ▸ read⟩
  exact Utf8.ofText_injective (encoded _ alsoAmong) (encoded _ among)
    (Except.ok.inj (read.symm.trans same))

end

/-- Two modules that differ in their suffixes only, which a wrapper does not keep. -/
def twins : Session :=
  .ofFiles [("a.ts", "export\x7ba\x7dfrom'x'"), ("a.tsx", "export\x7bb\x7dfrom'y'")]

/-- Both modules are reported with a wrapper, but the first wrapper is not there in the end. -/
theorem build_twins :
    let project : Project := { root := {}, wrapper := {} }
    let first : Text := "export \x7b a \x7d from \"x\";\n"
    let second : Text := "export \x7b b \x7d from \"y\";\n"
    ∃ report final,
      twins.run (project.build false [.ofText "a.ts", .ofText "a.tsx"]) = (.ok report, final) ∧
      report.map BuildResult.outcome = [.ok (.ofText "a.js", first), .ok (.ofText "a.js", second)] ∧
      final.read (.ofText "a.js") ≠ .ok (Utf8.ofText first) := by
  intro project first second
  have sources : project.sources [.ofText "a.ts", .ofText "a.tsx"] twins =
      [.ofText "a.ts", .ofText "a.tsx"] :=
    sources_eq (by decide +kernel) (by decide +kernel)
  let start := project.started [.ofText "a.ts", .ofText "a.tsx"] twins
  have built : (start.run (project.buildResults false
      (project.sources [.ofText "a.ts", .ofText "a.tsx"] twins))).1.map
        (List.map BuildResult.outcome) =
          .ok [.ok (.ofText "a.js", first), .ok (.ofText "a.js", second)] := by
    rw [sources]
    decide +kernel
  obtain ⟨report, final, run, outcomes⟩ := exists_run_build built
  obtain ⟨result, mem, made⟩ := List.mem_map.1 (outcomes ▸ List.mem_cons_self)
  obtain ⟨-, later, latest, -, kept⟩ := build_wrapper_kept run mem made
  refine ⟨report, final, run, outcomes, fun there => ?_⟩
  have wrappers : report.wrappers = [(.ofText "a.js", first), (.ofText "a.js", second)] := by
    rw [BuildReport.wrappers_eq, outcomes]
    rfl
  have last : twins.lastAt [(.ofText "a.js", first), (.ofText "a.js", second)]
      (twins.target (.ofText "a.js")) = some second := by decide +kernel
  have distinct : first ≠ second := by decide +kernel
  rw [wrappers, kept.1 there, last] at latest
  exact distinct (Option.some.inj latest).symm

end Project

end ElementWrapper
