import ElementWrapper.Proofs.Files.Runs
import ElementWrapper.Proofs.Files.Directories

/-!
Runs that make the directories on a route. They only add directories (`makeMissing_makes`), and on a
way that leads straight down they add none in vain (`makeMissing_makesStraight`): if one of them
cannot be made, none has been.
-/

namespace ElementWrapper

theorem Route.steps_parent {route : Route} {init : List Text} {last : Text}
    (steps : route.steps = init ++ [last]) : route.parent.steps = init := by
  rw [Route.parent, steps, List.dropLast_concat]

namespace Session

variable {session : Session} {route : Route}

theorem exists_locate {entry : Entry} (h : session.get? route = some entry) :
    ∃ place, session.locate route = .ok place ∧ session.files.get? place = some entry := by
  rw [get?] at h
  cases located : session.locate route with
  | error fault => simp [located] at h
  | ok place => exact ⟨place, rfl, by simpa only [located] using h⟩

/-! ## Making directories -/

/-- That a directory cannot be made is no failure if it is there. -/
theorem run_isDirectory (session : Session) (route : Route) (fault : FileFault) :
    StateT.run (do return if ← isKind .directory route then .ok () else .error ⟨fault, route⟩ :
      SessionM (Except FileError Unit)) session =
        (if session.get? route = some .directory then .ok () else .error ⟨fault, route⟩,
          session) := by
  have kind : (session.get? route).map Entry.kind = some .directory ↔
      session.get? route = some .directory := by
    cases session.get? route with
    | none => simp
    | some entry => cases entry <;> simp [Entry.kind]
  simp only [← kind]
  change (if decide _ then _ else _, session) = _
  simp only [decide_eq_true_eq]

theorem run_makeDirectory (session : Session) (route : Route) :
    StateT.run (makeDirectory route : SessionM (Except FileFault Unit)) session =
      match session.locate route >>= session.files.makeDirectory with
      | .ok files => (.ok (), { session with files })
      | .error fault => (.error fault, session) := rfl

theorem run_ensureDirectory_made (session : Session) (before : SessionM (Except FileError Unit))
    (route : Route) :
    session.run (ensureDirectory before route : ExceptT FileError SessionM Unit) =
      Id.run (let made :=
        StateT.run (makeDirectory route : SessionM (Except FileFault Unit)) session
      StateT.run (match made.1 with
        | .ok () => return .ok ()
        | .error .missing => before
        | .error fault =>
          return if ← isKind .directory route then .ok () else .error ⟨fault, route⟩) made.2) :=
  rfl

/-- A directory is made at once, or after the way to it if that is missing; other faults count only
where no directory is. -/
theorem run_ensureDirectory (session : Session) (before : SessionM (Except FileError Unit))
    (route : Route) :
    session.run (ensureDirectory before route : ExceptT FileError SessionM Unit) =
      match session.locate route >>= session.files.makeDirectory with
      | .ok files => (.ok (), { session with files })
      | .error .missing => session.run before
      | .error fault =>
        (if session.get? route = some .directory then .ok () else .error ⟨fault, route⟩,
          session) := by
  rw [run_ensureDirectory_made, run_makeDirectory]
  cases session.locate route >>= session.files.makeDirectory with
  | ok files => rfl
  | error fault =>
    cases fault with
    | missing => rfl
    | present | notDirectory | isDirectory | other => exact run_isDirectory session route _

theorem run_makeMissing_zero (session : Session) (route : Route) :
    session.run (makeMissing 0 route : ExceptT FileError SessionM Unit) =
      match session.locate route >>= session.files.makeDirectory with
      | .ok files => (.ok (), { session with files })
      | .error .missing => (.error ⟨.missing, route⟩, session)
      | .error fault =>
        (if session.get? route = some .directory then .ok () else .error ⟨fault, route⟩,
          session) :=
  run_ensureDirectory session (return .error ⟨.missing, route⟩) route

theorem run_makeMissing_around (session : Session) (more : Nat) (route : Route) :
    session.run (do
      match ← makeMissing more route.parent with
      | .ok () => ensureDirectory (return .error ⟨.missing, route⟩) route
      | .error error => return .error error : SessionM (Except FileError Unit)) =
    Id.run (let made :=
        session.run (makeMissing more route.parent : ExceptT FileError SessionM Unit)
      StateT.run (match made.1 with
        | .ok () => ensureDirectory (return .error ⟨.missing, route⟩) route
        | .error error => return .error error : SessionM (Except FileError Unit)) made.2) :=
  rfl

/-- One level up: where the way to a directory is missing, the parent is made first. -/
theorem run_makeMissing_succ (session : Session) (more : Nat) (route : Route) :
    session.run (makeMissing (more + 1) route : ExceptT FileError SessionM Unit) =
      match session.locate route >>= session.files.makeDirectory with
      | .ok files => (.ok (), { session with files })
      | .error .missing =>
        match session.run (makeMissing more route.parent : ExceptT FileError SessionM Unit) with
        | (.ok (), next) => next.run (makeMissing 0 route : ExceptT FileError SessionM Unit)
        | (.error e, next) => (.error e, next)
      | .error fault =>
        (if session.get? route = some .directory then .ok () else .error ⟨fault, route⟩,
          session) := by
  refine (run_ensureDirectory session _ route).trans ?_
  cases session.locate route >>= session.files.makeDirectory with
  | ok files => rfl
  | error fault =>
    cases fault with
    | missing =>
      refine (run_makeMissing_around session more route).trans ?_
      rcases session.run (makeMissing more route.parent : ExceptT FileError SessionM Unit) with
        ⟨error | _, next⟩ <;> rfl
    | present | notDirectory | isDirectory | other => rfl

/-- What a run that makes directories gives: nothing but the files has changed, these have grown,
and the directory is there unless the run failed. -/
structure Makes (session : Session) (route : Route) (outcome : Except FileError Unit × Session) :
    Prop where
  grows : ∃ files, outcome.2 = { session with files } ∧ session.files.Grows files
  there : outcome.1 = .ok () → outcome.2.get? route = some .directory

theorem Makes.files {outcome : Except FileError Unit × Session} (h : session.Makes route outcome) :
    session.files.Grows outcome.2.files := by
  obtain ⟨files, same, grows⟩ := h.grows
  rwa [same]

theorem Makes.unchanged (session : Session) (route : Route) (e : FileError) :
    session.Makes route (.error e, session) := ⟨⟨session.files, rfl, .refl _⟩, nofun⟩

/-- A first try makes the directory, finds it, or fails; what comes after it is left to `rest`. -/
theorem Makes.of_tried {rest : Except FileError Unit × Session}
    (h : session.locate route >>= session.files.makeDirectory = .error .missing →
      session.Makes route rest) :
    session.Makes route (match session.locate route >>= session.files.makeDirectory with
      | .ok files => (.ok (), { session with files })
      | .error .missing => rest
      | .error fault =>
        (if session.get? route = some .directory then .ok () else .error ⟨fault, route⟩,
          session)) := by
  cases tried : session.locate route >>= session.files.makeDirectory with
  | ok files =>
    obtain ⟨place, located, made⟩ := Except.bind_eq_ok.1 tried
    have grows := FileTree.makeDirectory_grows made
    have found : ({ session with files } : Session).locate route = .ok place :=
      FileTree.follow_mono (fun _ => grows.get?_directory) located
    refine ⟨⟨files, rfl, grows⟩, fun _ => ?_⟩
    rw [get?, found]
    exact (FileTree.makeDirectory_eq_ok made).2.1
  | error fault =>
    cases fault with
    | missing => exact h tried
    | present | notDirectory | isDirectory | other =>
      refine ⟨⟨session.files, rfl, .refl _⟩, fun succeeds => ?_⟩
      by_contra missing
      simp only [if_neg missing] at succeeds
      cases succeeds

/-- The induction is on the levels that may be missing. When the parent has been made, the directory
is tried once more in a session whose files have grown. -/
theorem makeMissing_makes (session : Session) (more : Nat) (route : Route) :
    session.Makes route
      (session.run (makeMissing more route : ExceptT FileError SessionM Unit)) := by
  have once (session : Session) (route : Route) : session.Makes route
      (session.run (makeMissing 0 route : ExceptT FileError SessionM Unit)) := by
    rw [run_makeMissing_zero]
    exact .of_tried fun _ => .unchanged session route _
  induction more generalizing session route with
  | zero => exact once session route
  | succ more ih =>
    rw [run_makeMissing_succ]
    refine .of_tried fun _ => ?_
    have around := ih session route.parent
    rcases made : session.run (makeMissing more route.parent : ExceptT FileError SessionM Unit) with
      ⟨e | _, next⟩ <;> rw [made] at around
    · exact ⟨around.grows, nofun⟩
    · obtain ⟨files, rfl, grows⟩ := around.grows
      have again := once { session with files } route
      obtain ⟨last, same, growsAgain⟩ := again.grows
      exact ⟨⟨last, same, grows.trans growsAgain⟩, again.there⟩

/-- A directory that is there need not be made. -/
theorem makeMissing_of_directory (h : session.get? route = some .directory) (more : Nat) :
    session.run (makeMissing more route : ExceptT FileError SessionM Unit) = (.ok (), session) := by
  have tried : session.locate route >>= session.files.makeDirectory = .error .present := by
    obtain ⟨place, located, directory⟩ := exists_locate h
    rw [located]
    exact FileTree.makeDirectory_of_isSome (directory ▸ rfl)
  cases more with
  | zero => simp only [run_makeMissing_zero, tried, if_pos h]
  | succ more => simp only [run_makeMissing_succ, tried, if_pos h]

/-- The records are nothing to a run that makes directories. -/
theorem makeMissing_records (session : Session) (records : List LogRecord) (more : Nat)
    (route : Route) :
    ({ session with records } : Session).run
        (makeMissing more route : ExceptT FileError SessionM Unit) =
      ((session.run (makeMissing more route : ExceptT FileError SessionM Unit)).1,
        { (session.run (makeMissing more route : ExceptT FileError SessionM Unit)).2 with
          records }) := by
  have once (session : Session) (route : Route) : ({ session with records } : Session).run
      (makeMissing 0 route : ExceptT FileError SessionM Unit) =
        ((session.run (makeMissing 0 route : ExceptT FileError SessionM Unit)).1,
          { (session.run (makeMissing 0 route : ExceptT FileError SessionM Unit)).2 with
            records }) := by
    simp only [run_makeMissing_zero, locate]
    cases session.files.follow (if route.isRooted then [] else session.working) route.steps >>=
        session.files.makeDirectory with
    | ok files => rfl
    | error fault => cases fault <;> rfl
  induction more generalizing session route with
  | zero => exact once session route
  | succ more ih =>
    simp only [run_makeMissing_succ, locate, ih]
    cases session.files.follow (if route.isRooted then [] else session.working) route.steps >>=
        session.files.makeDirectory with
    | ok files => rfl
    | error fault =>
      cases fault with
      | missing =>
        rcases session.run (makeMissing more route.parent : ExceptT FileError SessionM Unit) with
          ⟨e | _, next⟩
        · rfl
        · exact once next route
      | present | notDirectory | isDirectory | other => rfl

/-! ## Straight routes -/

/-- Where a route starts. -/
def origin (session : Session) (route : Route) : Place :=
  if route.isRooted then [] else session.working

/-- What a run that makes directories on a straight way to a place gives: if it fails, nothing has
changed; if something has changed, then on the way to the place, where nothing was. -/
structure MakesStraight (session : Session) (target : Place)
    (outcome : Except FileError Unit × Session) : Prop where
  failed : ∀ e, outcome.1 = .error e → outcome.2 = session
  made : outcome.2 = session ∨ session.files.get? target = none ∧
    ∀ other, ¬ other <+: target → outcome.2.files.get? other = session.files.get? other

theorem MakesStraight.unchanged (session : Session) (target : Place)
    (result : Except FileError Unit) : session.MakesStraight target (result, session) :=
  ⟨fun _ _ => rfl, .inl rfl⟩

/-- On a straight way a first try that makes the directory changes its place alone, where nothing
was. -/
theorem MakesStraight.of_tried {rest : Except FileError Unit × Session}
    (straight : FileTree.Straight route.steps)
    (h : session.files.get? (session.origin route ++ route.steps) = none →
      session.MakesStraight (session.origin route ++ route.steps) rest) :
    session.MakesStraight (session.origin route ++ route.steps)
      (match session.locate route >>= session.files.makeDirectory with
      | .ok files => (.ok (), { session with files })
      | .error .missing => rest
      | .error fault =>
        (if session.get? route = some .directory then .ok () else .error ⟨fault, route⟩,
          session)) := by
  cases tried : session.locate route >>= session.files.makeDirectory with
  | ok files =>
    obtain ⟨place, located, made⟩ := Except.bind_eq_ok.1 tried
    obtain rfl := FileTree.follow_of_straight straight located
    obtain ⟨empty, -, others⟩ := FileTree.makeDirectory_eq_ok made
    refine ⟨nofun, .inr ⟨empty, fun other off => others other ?_⟩⟩
    rintro rfl
    exact off (List.prefix_refl _)
  | error fault =>
    cases fault with
    | missing =>
      refine h (Option.not_isSome_iff_eq_none.1 fun stands => ?_)
      have located : session.locate route = .ok (session.origin route ++ route.steps) :=
        FileTree.follow_of_isSome straight stands
      rw [located] at tried
      cases (FileTree.makeDirectory_of_isSome stands).symm.trans tried
    | present | notDirectory | isDirectory | other => exact .unchanged _ _ _

/-- A straight route through a directory leads to the place that its last step names in there. -/
theorem locate_of_straight {init : List Text} {last : Text} (steps : route.steps = init ++ [last])
    (straight : FileTree.Straight (init ++ [last]))
    (around : session.get? route.parent = some .directory) :
    session.files.get? (session.origin route ++ init) = some .directory ∧
      session.locate route = .ok (session.origin route ++ init ++ [last]) := by
  obtain ⟨first, onward⟩ := FileTree.straight_concat.1 straight
  have parent := Route.steps_parent steps
  obtain ⟨place, located, directory⟩ := exists_locate around
  have straightAhead := FileTree.follow_of_straight (parent ▸ first) located
  rw [parent] at straightAhead
  obtain rfl : place = session.origin route ++ init := straightAhead
  refine ⟨directory, ?_⟩
  rw [locate, parent] at located
  rw [locate, steps]
  exact FileTree.follow_concat_eq_ok.2
    ⟨_, located, directory, FileTree.next_of_straight onward⟩

/-- In a directory that is there the last one of a straight route can be made, if nothing is in its
way. -/
theorem exists_makeMissing_zero (session : Session) {init : List Text} {last : Text}
    (steps : route.steps = init ++ [last]) (straight : FileTree.Straight (init ++ [last]))
    (around : session.get? route.parent = some .directory)
    (empty : session.files.get? (session.origin route ++ (init ++ [last])) = none) :
    ∃ files, session.run (makeMissing 0 route : ExceptT FileError SessionM Unit) =
        (.ok (), { session with files }) ∧
      ∀ other ≠ session.origin route ++ (init ++ [last]),
        files.get? other = session.files.get? other := by
  obtain ⟨directory, located⟩ := locate_of_straight steps straight around
  rw [← List.append_assoc] at empty ⊢
  obtain ⟨files, made⟩ := FileTree.exists_makeDirectory directory empty
  have tried : session.locate route >>= session.files.makeDirectory = .ok files := by
    rw [located]
    exact made
  refine ⟨files, ?_, (FileTree.makeDirectory_eq_ok made).2.2⟩
  rw [run_makeMissing_zero, tried]

/-- If all the way to it has been made straight, the last directory can be made as well. -/
theorem MakesStraight.concat {next : Session} {init : List Text} {last : Text}
    (steps : route.steps = init ++ [last]) (straight : FileTree.Straight (init ++ [last]))
    (empty : session.files.get? (session.origin route ++ (init ++ [last])) = none)
    (makes : session.Makes route.parent (.ok (), next))
    (around : session.MakesStraight (session.origin route ++ init) (.ok (), next)) :
    session.MakesStraight (session.origin route ++ (init ++ [last]))
      (next.run (makeMissing 0 route : ExceptT FileError SessionM Unit)) := by
  obtain ⟨files, same, -⟩ := makes.grows
  obtain rfl : next = { session with files } := same
  have kept : ∀ other, ¬ other <+: session.origin route ++ init →
      files.get? other = session.files.get? other := by
    obtain unchanged | ⟨-, others⟩ := around.made
    · intro other _
      exact congrArg (fun session : Session => session.files.get? other) unchanged
    · exact others
  have beyond : ¬ session.origin route ++ (init ++ [last]) <+: session.origin route ++ init :=
    fun inside => by simpa using inside.length_le
  have shorter : session.origin route ++ init <+: session.origin route ++ (init ++ [last]) := by
    rw [← List.append_assoc]
    exact List.prefix_append _ _
  obtain ⟨later, made, others⟩ := exists_makeMissing_zero { session with files } steps straight
    (makes.there rfl) ((kept _ beyond).trans empty)
  rw [made]
  refine ⟨nofun, .inr ⟨empty, fun other off => ?_⟩⟩
  have ne : other ≠ session.origin route ++ (init ++ [last]) := fun e =>
    off (e ▸ List.prefix_refl _)
  exact (others other ne).trans (kept other fun inside => off (inside.trans shorter))

/-- On a straight way a parent that was made is new and empty, so that the directory can be made in
it: no failure comes after a change. -/
theorem makeMissing_makesStraight (session : Session) (more : Nat) (route : Route)
    (straight : FileTree.Straight route.steps) :
    session.MakesStraight (session.origin route ++ route.steps)
      (session.run (makeMissing more route : ExceptT FileError SessionM Unit)) := by
  induction more generalizing route with
  | zero =>
    rw [run_makeMissing_zero]
    exact .of_tried straight fun _ => .unchanged _ _ _
  | succ more ih =>
    rw [run_makeMissing_succ]
    refine .of_tried straight fun empty => ?_
    have makes := makeMissing_makes session more route.parent
    obtain none' | ⟨init, last, steps⟩ := List.eq_nil_or_concat route.steps
    · -- Without a step the directory itself has been made already.
      have same : route.parent = route := by
        obtain ⟨root, _⟩ := route
        obtain rfl := none'
        rfl
      have around := ih route straight
      rw [same] at makes ⊢
      rcases made : session.run (makeMissing more route : ExceptT FileError SessionM Unit) with
        ⟨e | _, next⟩ <;> rw [made] at around makes
      · exact around
      · simp only [makeMissing_of_directory (makes.there rfl)]
        exact around
    · rw [List.concat_eq_append] at steps
      rw [steps] at straight empty ⊢
      obtain ⟨first, -⟩ := FileTree.straight_concat.1 straight
      have parent := Route.steps_parent steps
      have around := ih route.parent (parent ▸ first)
      rw [parent] at around
      rcases made : session.run (makeMissing more route.parent : ExceptT FileError SessionM Unit)
        with ⟨e | _, next⟩ <;> rw [made] at around makes
      · exact ⟨fun _ _ => around.failed e rfl, .inl (around.failed e rfl)⟩
      · exact .concat steps straight empty makes around

theorem makeDirectories_makes (session : Session) (route : Route) :
    session.Makes route
      (session.run (makeDirectories route : ExceptT FileError SessionM Unit)) :=
  makeMissing_makes session route.steps.length route

theorem makeDirectories_makesStraight (session : Session) (route : Route)
    (straight : FileTree.Straight route.steps) :
    session.MakesStraight (session.origin route ++ route.steps)
      (session.run (makeDirectories route : ExceptT FileError SessionM Unit)) :=
  makeMissing_makesStraight session route.steps.length route straight

theorem makeDirectories_of_directory (h : session.get? route = some .directory) :
    session.run (makeDirectories route : ExceptT FileError SessionM Unit) = (.ok (), session) :=
  makeMissing_of_directory h route.steps.length

theorem makeDirectories_records (session : Session) (records : List LogRecord) (route : Route) :
    ({ session with records } : Session).run
        (makeDirectories route : ExceptT FileError SessionM Unit) =
      ((session.run (makeDirectories route : ExceptT FileError SessionM Unit)).1,
        { (session.run (makeDirectories route : ExceptT FileError SessionM Unit)).2 with
          records }) :=
  makeMissing_records session records route.steps.length route

/-- What has a text stands in a directory. -/
theorem directory_of_text {text : List Char} (h : session.text route = .ok text)
    (steps : route.steps ≠ []) : session.get? route.parent = some .directory := by
  obtain none' | ⟨init, last, concat⟩ := List.eq_nil_or_concat route.steps
  · contradiction
  rw [List.concat_eq_append] at concat
  rw [Session.text] at h
  cases read : session.read route with
  | error fault => simp [read] at h
  | ok bytes =>
    obtain ⟨place, located, -⟩ := Except.bind_eq_ok.1 read
    rw [locate, concat] at located
    obtain ⟨around, found, directory, -⟩ := FileTree.follow_concat_eq_ok.1 located
    have parent : session.locate route.parent = .ok around := by
      rw [locate, Route.steps_parent concat]
      exact found
    rw [get?, parent]
    exact directory

end Session

end ElementWrapper
