import ElementWrapper.Proofs.Build.Runs
import ElementWrapper.Proofs.Files.Making

/-!
What the build of a module leaves behind when it fails. Until the wrapper is written nothing but
records has changed. Then directories are made, but none in vain as long as the way leads straight
down; a file that cannot be written is not touched. But a wrapper that cannot be encoded is noticed
too late: its file has been emptied by then (`buildFile_leaves`).
-/

namespace ElementWrapper

theorem Route.parent_step (route : Route) (name : Text) : (route.step name).parent = route := by
  rw [Route.parent, Route.step, List.dropLast_concat]

namespace Project

variable {project : Project} {session final : Session} {dryRun : Bool} {source output : Route}
  {code : Text} {fault : BuildFault}

/-! ## Writing -/

/-- How a wrapper is written: directories first, then the file, and then a record unless the text
has no encoding, which is noticed when the file is there already. -/
theorem run_writeWrapper (session : Session) (output : Route) (code : Text) :
    session.run (writeWrapper output code) =
      match session.run (makeDirectories output.parent : ExceptT FileError SessionM Unit) with
      | (.error e, next) => (.error (.unwritable e), next)
      | (.ok (), next) =>
        match next.locate output >>= (next.files.write · (Utf8.encode (code.toChars?.getD []))) with
        | .error fault => (.error (.unwritable ⟨fault, output⟩), next)
        | .ok files =>
          if code.toChars? = none then (.error .unencodable, { next with files })
          else (.ok (), ({ next with files } : Session).noted
            ⟨.info, .builder, "Wrote " ++ output.text⟩) := by
  rw [writeWrapper, Session.run_bind, Session.run_adapt]
  rcases session.run (makeDirectories output.parent : ExceptT FileError SessionM Unit) with
    ⟨e | _, next⟩
  · rfl
  · change next.run (_ >>= _) = _
    rw [Session.run_bind, Session.run_adapt, Session.run_writeBytes]
    dsimp only
    cases next.locate output >>= (next.files.write · (Utf8.encode (code.toChars?.getD []))) with
    | error fault => rfl
    | ok files =>
      cases code.toChars? <;> rfl

/-- The ways in which writing a wrapper fails. -/
theorem writeWrapper_eq_error (h : session.run (writeWrapper output code) = (.error fault, final)) :
    (∃ e, fault = .unwritable e ∧
      session.run (makeDirectories output.parent : ExceptT FileError SessionM Unit) =
        (.error e, final)) ∨
    ∃ next, session.run (makeDirectories output.parent : ExceptT FileError SessionM Unit) =
        (.ok (), next) ∧
      ((∃ e, fault = .unwritable ⟨e, output⟩ ∧ final = next ∧
          next.locate output >>= (next.files.write · (Utf8.encode (code.toChars?.getD []))) =
            .error e) ∨
        ∃ files, fault = .unencodable ∧ code.toChars? = none ∧ final = { next with files } ∧
          next.locate output >>= (next.files.write · []) = .ok files) := by
  rw [run_writeWrapper] at h
  rcases made : session.run (makeDirectories output.parent : ExceptT FileError SessionM Unit) with
    ⟨e | _, next⟩
  · rw [made] at h
    cases h
    exact .inl ⟨e, rfl, rfl⟩
  · rw [made] at h
    refine .inr ⟨next, rfl, ?_⟩
    dsimp only at h
    cases written : next.locate output >>=
        (next.files.write · (Utf8.encode (code.toChars?.getD []))) with
    | error e =>
      rw [written] at h
      cases h
      exact .inl ⟨e, rfl, rfl, rfl⟩
    | ok files =>
      simp only [written] at h
      by_cases surrogate : code.toChars? = none
      · rw [if_pos surrogate] at h
        cases h
        rw [surrogate] at written
        exact .inr ⟨files, rfl, surrogate, rfl, written⟩
      · rw [if_neg surrogate] at h
        cases h

/-- Writing fails in two ways only. -/
theorem writeWrapper_fault (h : session.run (writeWrapper output code) = (.error fault, final)) :
    fault = .unencodable ∨ ∃ e, fault = .unwritable e := by
  obtain ⟨e, rfl, -⟩ | ⟨_, -, ⟨e, rfl, -⟩ | ⟨_, rfl, -⟩⟩ := writeWrapper_eq_error h
  · exact .inr ⟨_, rfl⟩
  · exact .inr ⟨_, rfl⟩
  · exact .inl rfl

/-- A wrapper without an encoding leaves an empty file in its place; elsewhere at most new
directories. -/
theorem writeWrapper_unencodable
    (h : session.run (writeWrapper output code) = (.error .unencodable, final)) :
    code.toChars? = none ∧ ∃ place, final.locate output = .ok place ∧
      final.files.get? place = some (.file []) ∧
      ∀ other ≠ place, final.files.get? other = session.files.get? other ∨
        session.files.get? other = none ∧ final.files.get? other = some .directory := by
  obtain ⟨e, unwritable, _⟩ |
    ⟨next, made, ⟨e, unwritable, _⟩ | ⟨files, -, surrogate, rfl, written⟩⟩ :=
    writeWrapper_eq_error h
  · cases unwritable
  · cases unwritable
  refine ⟨surrogate, ?_⟩
  obtain ⟨place, located, written⟩ := Except.bind_eq_ok.1 written
  obtain ⟨-, emptied, others⟩ := FileTree.write_eq_ok written
  have makes := session.makeDirectories_makes output.parent
  rw [made] at makes
  obtain ⟨grown, same, grows⟩ := makes.grows
  obtain rfl : next = { session with files := grown } := same
  have still : ({ session with files } : Session).locate output = .ok place :=
    FileTree.follow_mono (fun _ => FileTree.write_keeps_directory written) located
  refine ⟨place, still, emptied, fun other ne => ?_⟩
  rw [others other ne]
  exact grows other

/-- A wrapper that cannot be written leaves at most new directories. -/
theorem writeWrapper_unwritable {e : FileError}
    (h : session.run (writeWrapper output code) = (.error (.unwritable e), final)) :
    session.files.Grows final.files := by
  have makes := session.makeDirectories_makes output.parent
  obtain ⟨_, -, made⟩ | ⟨next, made, ⟨_, -, rfl, -⟩ | ⟨_, unencodable, _⟩⟩ :=
    writeWrapper_eq_error h
  · rw [made] at makes
    exact makes.files
  · rw [made] at makes
    exact makes.files
  · cases unencodable

/-- No directory is made where there is one already. -/
theorem writeWrapper_of_directory {e : FileError}
    (around : session.get? output.parent = some .directory)
    (h : session.run (writeWrapper output code) = (.error (.unwritable e), final)) :
    final = session := by
  have made := Session.makeDirectories_of_directory around
  obtain ⟨_, -, failed⟩ | ⟨next, again, ⟨_, -, rfl, -⟩ | ⟨_, unencodable, _⟩⟩ :=
    writeWrapper_eq_error h
  · rw [made] at failed
    cases failed
  · rw [made] at again
    cases again
    rfl
  · cases unencodable

/-- On a straight way no directory is made in vain: in a new one nothing is in the way of a file. -/
theorem writeWrapper_of_straight {e : FileError} {init : List Text} {last : Text}
    (steps : output.steps = init ++ [last]) (straight : FileTree.Straight output.steps)
    (h : session.run (writeWrapper output code) = (.error (.unwritable e), final)) :
    final = session := by
  rw [steps] at straight
  obtain ⟨first, onward⟩ := FileTree.straight_concat.1 straight
  have parent := Route.steps_parent steps
  have makesStraight := session.makeDirectories_makesStraight output.parent (parent ▸ first)
  have makes := session.makeDirectories_makes output.parent
  obtain ⟨_, -, made⟩ | ⟨next, made, ⟨_, -, rfl, unwritten⟩ | ⟨_, unencodable, _⟩⟩ :=
    writeWrapper_eq_error h
  · rw [made] at makesStraight
    exact makesStraight.failed _ rfl
  · rw [made] at makesStraight makes
    obtain unchanged | ⟨empty, others⟩ := makesStraight.made
    · exact unchanged
    · obtain ⟨files, same, -⟩ := makes.grows
      obtain rfl : final = { session with files } := same
      obtain ⟨directory, located⟩ :=
        Session.locate_of_straight steps straight (makes.there rfl)
      have way : session.origin output.parent ++ output.parent.steps =
          session.origin output ++ init := by
        rw [parent]
        rfl
      rw [way] at empty others
      have nothing : session.files.get? (session.origin output ++ init ++ [last]) = none := by
        by_contra stands
        have around := FileTree.get?_eq_directory (Option.isSome_iff_ne_none.2 stands)
        rw [empty] at around
        cases around
      have beyond : ¬ session.origin output ++ init ++ [last] <+: session.origin output ++ init :=
        fun inside => by simpa using inside.length_le
      obtain ⟨later, written⟩ := FileTree.exists_write directory
        ((others _ beyond).trans nothing) (Utf8.encode (code.toChars?.getD []))
      rw [located] at unwritten
      cases unwritten.symm.trans written
  · cases unencodable

/-! ## The whole -/

theorem withSuffix?_eq_some {route : Route} {suffix : Text}
    (h : route.withSuffix? suffix = some output) :
    route.steps ≠ [] ∧ ∃ name, output = route.parent.step name := by
  rw [Route.withSuffix?] at h
  split at h
  · next valid =>
    refine ⟨?_, _, (Option.some.inj h).symm⟩
    simpa using (Bool.and_eq_true_iff.1 valid).2
  · cases h

/-- A wrapper has the name of its module with another suffix. It stands beside its module or below
the directory of wrappers, and never in the place of the module itself. -/
theorem outputRoute_eq_ok (h : project.outputRoute source = .ok output) :
    ∃ target, target.withSuffix? project.wrapper.outputExtension = some output ∧
      (project.outDirectory = none → target = source) ∧
      (∀ directory, project.outDirectory = some directory → ∃ rest, target = directory ++ rest ∧
        (rest = .ofText source.name ∨ ∃ components : Route, components.below?
          (source.resolve (Route.ofText project.wrapper.start)) = some rest)) ∧
      output.resolve (Route.ofText project.wrapper.start) ≠
        source.resolve (Route.ofText project.wrapper.start) := by
  rw [outputRoute] at h
  dsimp only at h
  split at h
  · next target named =>
    split at h
    · cases h
    · split at h
      · cases h
      · next apart =>
        obtain rfl := Except.ok.inj h
        refine ⟨_, named, fun beside => by rw [beside], fun directory below => ?_, apart⟩
        rw [below]
        refine ⟨_, rfl, ?_⟩
        split
        · cases found : Route.below? _ _ with
          | none => exact .inl rfl
          | some rest => exact .inr ⟨_, found⟩
        · exact .inl rfl
  · cases h

/-- A module whose wrapper has no place is one without a name for it, or one that would be
overwritten. -/
theorem outputRoute_eq_error (h : project.outputRoute source = .error fault) :
    fault = .badName ∨ fault = .overwrites source := by
  rw [outputRoute] at h
  dsimp only at h
  split at h
  · split at h
    · exact .inl (Except.error.inj h).symm
    · split at h
      · exact .inr (Except.error.inj h).symm
      · cases h
  · exact .inl (Except.error.inj h).symm

section

variable [Source.Recovery]

/-- What is wrong before a wrapper is written. -/
theorem wrapped_eq_error (h : project.wrapped session source = .error fault) :
    fault ≠ .unencodable ∧ ∀ e, fault ≠ .unwritable e := by
  rw [wrapped] at h
  obtain unnamed | ⟨output, -, h⟩ := Except.bind_eq_error.1 h
  · obtain rfl | rfl := outputRoute_eq_error unnamed <;> simp
  obtain unread | ⟨text, -, h⟩ := Except.bind_eq_error.1 h
  · obtain ⟨_, -, rfl⟩ := Except.mapError_eq_error.1 unread
    simp
  obtain rejected | ⟨code, -, h⟩ := Except.bind_eq_error.1 h
  · obtain ⟨_, -, rfl⟩ := Except.mapError_eq_error.1 rejected
    simp
  · cases h

theorem outputRoute_of_wrapped (h : project.wrapped session source = .ok (output, code)) :
    project.outputRoute source = .ok output := by
  rw [wrapped] at h
  obtain ⟨_, named, h⟩ := Except.bind_eq_ok.1 h
  obtain ⟨_, -, h⟩ := Except.bind_eq_ok.1 h
  obtain ⟨_, -, h⟩ := Except.bind_eq_ok.1 h
  cases h
  exact named

/-- A wrapper that stands beside its module has a directory to stand in. -/
theorem directory_of_wrapped (beside : project.outDirectory = none)
    (h : project.wrapped session source = .ok (output, code)) :
    session.get? output.parent = some .directory := by
  rw [wrapped] at h
  obtain ⟨_, named, h⟩ := Except.bind_eq_ok.1 h
  obtain ⟨text, read, h⟩ := Except.bind_eq_ok.1 h
  obtain ⟨_, -, h⟩ := Except.bind_eq_ok.1 h
  cases h
  obtain ⟨target, suffixed, same, -, -⟩ := outputRoute_eq_ok named
  obtain rfl := same beside
  obtain ⟨steps, name, rfl⟩ := withSuffix?_eq_some suffixed
  rw [Route.parent_step]
  rw [Except.mapError_eq_ok] at read
  exact Session.directory_of_text read steps

/-- **What a build of a module leaves behind when it fails**. A wrapper that cannot be encoded
leaves an empty file, and perhaps new directories on the way to it. A wrapper that cannot be written
leaves at most new directories; it leaves none if it belongs beside its module, or if no step of the
way to it leads back. Any other failure leaves the files as they were. -/
theorem buildFile_leaves
    (h : session.run (project.buildFile dryRun source) = (.error fault, final)) :
    match fault with
    | .unencodable =>
      ∃ output code place, project.wrapped session source = .ok (output, code) ∧
        code.toChars? = none ∧ final.locate output = .ok place ∧
        final.files.get? place = some (.file []) ∧
        ∀ other ≠ place, final.files.get? other = session.files.get? other ∨
          session.files.get? other = none ∧ final.files.get? other = some .directory
    | .unwritable _ =>
      session.files.Grows final.files ∧
        (project.outDirectory = none ∨ (∀ output, project.outputRoute source = .ok output →
          FileTree.Straight output.steps) → final.files = session.files)
    | .overwrites _ | .badName | .unreadable _ | .rejected _ _ => final.files = session.files := by
  obtain ⟨next, only, run⟩ := run_buildFile project session dryRun source
  rw [run] at h
  cases made : project.wrapped session source with
  | error other =>
    rw [made] at h
    cases h
    obtain ⟨encodable, writable⟩ := wrapped_eq_error made
    cases fault with
    | unencodable => contradiction
    | unwritable e => exact absurd rfl (writable e)
    | overwrites | badName | unreadable | rejected => exact only.files
  | ok wrapper =>
    obtain ⟨output, code⟩ := wrapper
    rw [made] at h
    cases dryRun with
    | true => cases h
    | false =>
      rcases written : next.run (writeWrapper output code) with ⟨other | _, last⟩
      · simp only [written] at h
        cases h
        obtain rfl | ⟨e, rfl⟩ := writeWrapper_fault written
        · obtain ⟨surrogate, place, located, emptied, others⟩ := writeWrapper_unencodable written
          rw [only.files] at others
          exact ⟨output, code, place, rfl, surrogate, located, emptied, others⟩
        · refine ⟨only.files ▸ writeWrapper_unwritable written, ?_⟩
          rintro (beside | straight)
          · have around := only.get? output.parent ▸ directory_of_wrapped beside made
            rw [writeWrapper_of_directory around written]
            exact only.files
          · have named := outputRoute_of_wrapped made
            obtain ⟨target, suffixed, -, -, -⟩ := outputRoute_eq_ok named
            obtain ⟨-, name, rfl⟩ := withSuffix?_eq_some suffixed
            rw [writeWrapper_of_straight rfl (straight _ named) written]
            exact only.files
      · simp [written] at h

end

/-- A module whose wrapper holds half of a surrogate pair, beside a wrapper that was made before. -/
def loneSurrogate : Session := .ofFiles [("a.ts", "export\x7ba\x7dfrom'\\ud800'"), ("a.js", "old")]

/-- The old wrapper is lost: its file is empty after the failure. -/
theorem buildFile_loneSurrogate :
    let project : Project := { root := {}, wrapper := {} }
    loneSurrogate.read (.ofText "a.js") = .ok (Utf8.encode "old".toList) ∧
    ∃ final, loneSurrogate.run (project.buildFile false (.ofText "a.ts")) =
        (.error .unencodable, final) ∧
      final.read (.ofText "a.js") = .ok [] := by
  intro project
  let final := (loneSurrogate.run (project.buildFile false (.ofText "a.ts"))).2
  have fails : loneSurrogate.run (project.buildFile false (.ofText "a.ts")) =
      (.error .unencodable, final) := Prod.ext (by decide +kernel) rfl
  have named : (project.wrapped loneSurrogate (.ofText "a.ts")).map Prod.fst =
      .ok (.ofText "a.js") := by decide +kernel
  obtain ⟨output, code, place, made, -, located, emptied, -⟩ := buildFile_leaves fails
  rw [made] at named
  obtain rfl : output = .ofText "a.js" := Except.ok.inj named
  refine ⟨by decide +kernel, final, fails, Except.bind_eq_ok.2 ⟨place, located, ?_⟩⟩
  rw [FileTree.read, emptied]

end Project

end ElementWrapper
