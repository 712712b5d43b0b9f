import ElementWrapper.Session
import ElementWrapper.Proofs.Result

/-!
Runs on a file tree that may fail. `Session.run` gives the result of a run together with the session
that it leaves, so that each way to build runs has an equation: the next run starts in the session
which the last one left, whether or not that one failed.
-/

namespace ElementWrapper

namespace Session

variable {ε δ α β : Type}

/-- What a run that may fail gives, and the session that it leaves. -/
def run (session : Session) (x : ExceptT ε SessionM α) : Except ε α × Session :=
  Id.run (x.run.run session)

theorem run_bind (session : Session) (x : ExceptT ε SessionM α) (f : α → ExceptT ε SessionM β) :
    session.run (x >>= f) =
      match session.run x with
      | (.ok a, next) => next.run (f a)
      | (.error e, next) => (.error e, next) := by
  have unfolded : session.run (x >>= f) =
      Id.run ((ExceptT.bindCont f (session.run x).1).run (session.run x).2) := rfl
  rw [unfolded]
  obtain ⟨result, next⟩ := session.run x
  cases result <;> rfl

theorem run_adapt (session : Session) (f : ε → δ) (x : ExceptT ε SessionM α) :
    session.run (ExceptT.adapt f x) = ((session.run x).1.mapError f, (session.run x).2) := rfl

theorem run_lift (session : Session) (x : SessionM α) :
    session.run (liftM x : ExceptT ε SessionM α) = (.ok (x.run session).1, (x.run session).2) := rfl

theorem run_result (session : Session) (result : Except ε α) :
    session.run (liftM result : ExceptT ε SessionM α) = (result, session) := by
  cases result <;> rfl

/-- A failure is handled in the session that it leaves. -/
theorem run_tryCatch (session : Session) (x : ExceptT ε SessionM α)
    (handle : ε → ExceptT ε SessionM α) :
    session.run (tryCatch x handle) =
      match session.run x with
      | (.ok a, next) => (.ok a, next)
      | (.error e, next) => next.run (handle e) := by
  have unfolded : session.run (tryCatch x handle) =
      Id.run ((match (session.run x).1 with
        | .ok a => pure (.ok a)
        | .error e => (handle e).run : SessionM (Except ε α)).run (session.run x).2) := rfl
  rw [unfolded]
  obtain ⟨result, next⟩ := session.run x
  cases result <;> rfl

/-! ## Records -/

/-- A session with one more record. -/
def noted (session : Session) (record : LogRecord) : Session :=
  { session with records := record :: session.records }

/-- The later session differs from the earlier by its records at most. -/
def OnlyLogs (session next : Session) : Prop := ∃ records, next = { session with records }

namespace OnlyLogs

theorem refl (session : Session) : session.OnlyLogs session := ⟨session.records, rfl⟩

theorem noted (session : Session) (record : LogRecord) : session.OnlyLogs (session.noted record) :=
  ⟨_, rfl⟩

theorem trans {first second third : Session} (one : first.OnlyLogs second)
    (two : second.OnlyLogs third) : first.OnlyLogs third := by
  obtain ⟨_, rfl⟩ := one
  obtain ⟨records, rfl⟩ := two
  exact ⟨records, rfl⟩

theorem files {session next : Session} (h : session.OnlyLogs next) :
    next.files = session.files := by
  obtain ⟨_, rfl⟩ := h
  rfl

theorem get? {session next : Session} (h : session.OnlyLogs next) (route : Route) :
    next.get? route = session.get? route := by
  obtain ⟨_, rfl⟩ := h
  rfl

end OnlyLogs

/-! ## Files -/

/-- The text of the file that a route leads to. -/
def text (session : Session) (route : Route) : Except ReadFault (List Char) :=
  match session.read route with
  | .error fault => .error (.file ⟨fault, route⟩)
  | .ok bytes => (unifyLineEnds <$> Utf8.decode bytes).mapError .encoding

theorem run_readText (session : Session) (route : Route) :
    session.run (readText route : ExceptT ReadFault SessionM (List Char)) =
      (session.text route, session) := by
  have unfolded : session.run (readText route : ExceptT ReadFault SessionM (List Char)) =
      Id.run (StateT.run (match session.read route with
        | .error fault => return .error (.file ⟨fault, route⟩)
        | .ok bytes => return (unifyLineEnds <$> Utf8.decode bytes).mapError .encoding :
          SessionM (Except ReadFault (List Char))) session) := rfl
  rw [unfolded, text]
  cases session.read route <;> rfl

theorem OnlyLogs.text {session next : Session} (h : session.OnlyLogs next) (route : Route) :
    next.text route = session.text route := by
  obtain ⟨_, rfl⟩ := h
  rfl

theorem run_writeBytes (session : Session) (route : Route) (bytes : List UInt8) :
    session.run (writeBytes route bytes : ExceptT FileFault SessionM Unit) =
      match session.locate route >>= (session.files.write · bytes) with
      | .ok files => (.ok (), { session with files })
      | .error fault => (.error fault, session) := rfl

/-- A session with files of some texts in its working directory. -/
def ofFiles (files : List (Text × String)) : Session where
  files := files.foldl (fun tree file =>
    (tree.write [file.1] (Utf8.encode file.2.toList)).toOption.getD tree) .empty

end Session

end ElementWrapper
