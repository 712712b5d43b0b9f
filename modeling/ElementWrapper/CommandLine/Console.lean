import ElementWrapper.Files.Access
import ElementWrapper.Log

/-!
Where the program speaks. `MonadConsole` is what it may say; in a `LoggedT` run the records of a run
are complained about as notices and go into a log file as well.
-/

namespace ElementWrapper

/-- What a program may say. -/
class MonadConsole (m : Type → Type) where
  /-- Says what was asked for. -/
  print : Text → m Unit
  /-- Says what deserves attention. -/
  complain : Text → m Unit
  /-- The beginning of a line of a log file, which tells the time. -/
  stamp : m Text

export MonadConsole (print complain stamp)

instance {m : Type → Type} {ε : Type} [Monad m] [MonadConsole m] : MonadConsole (ExceptT ε m) where
  print text := liftM (m := m) (print text)
  complain text := liftM (m := m) (complain text)
  stamp := liftM (m := m) stamp

instance {m : Type → Type} {ρ : Type} [MonadConsole m] : MonadConsole (ReaderT ρ m) where
  print text := fun _ => print text
  complain text := fun _ => complain text
  stamp := fun _ => stamp

/-- What becomes of records. -/
structure LogTarget where
  /-- Whether there is a notice of every record, or not of those for troubleshooting. -/
  verbose : Bool
  /-- The file that takes all records. -/
  file : Option Route

/-- A run whose records go to a target. -/
abbrev LoggedT (m : Type → Type) : Type → Type := ReaderT LogTarget m

/-- The bytes of a text; a text with surrogates has none. -/
def bytesOf (text : Text) : List UInt8 := Utf8.encode (text.toChars?.getD [])

instance {m : Type → Type} [Monad m] [MonadFiles m] [MonadConsole m] : MonadLog (LoggedT m) where
  log record := fun target => do
    if target.verbose || record.severity ≠ .debug then complain (record.notice ++ "\n")
    if let some file := target.file then
      let _ ← appendBytes file (bytesOf ((← stamp) ++ record.text ++ "\n"))

end ElementWrapper
