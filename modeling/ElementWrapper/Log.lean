import ElementWrapper.Text.Basic

/-!
Records of a run. `MonadLog` is what a program may do with them.
-/

namespace ElementWrapper

/-- How much a record matters. -/
inductive Severity where
  | debug
  | info
  | warning
  | error
  deriving DecidableEq

/-- The name of a severity. -/
def Severity.name : Severity → Text
  | debug => "DEBUG"
  | info => "INFO"
  | warning => "WARNING"
  | error => "ERROR"

/-- The part of the program that a record comes from. -/
inductive Area where
  | builder
  | harvester
  deriving DecidableEq

/-- The name of the program and of a part of it. -/
def Area.name : Area → Text
  | builder => "wrapgen.builder"
  | harvester => "wrapgen.harvester"

/-- A record of something that a run did. -/
structure LogRecord where
  severity : Severity
  area : Area
  message : Text
  deriving DecidableEq

namespace LogRecord

/-- A record as a log file shows it. -/
def text (record : LogRecord) : Text :=
  record.severity.name ++ " " ++ record.area.name ++ ": " ++ record.message

/-- A record as it is shown to whoever watches the run. -/
def notice (record : LogRecord) : Text :=
  "[wrapgen] " ++ record.severity.name ++ " " ++ record.message

end LogRecord

/-- A place where records go. -/
class MonadLog (m : Type → Type) where
  log : LogRecord → m Unit

export MonadLog (log)

instance {m : Type → Type} {ε : Type} [Monad m] [MonadLog m] : MonadLog (ExceptT ε m) where
  log record := liftM (m := m) (log record)

end ElementWrapper
