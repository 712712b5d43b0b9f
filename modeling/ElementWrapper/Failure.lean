import ElementWrapper.Diagnostic
import ElementWrapper.Module.Printer
import ElementWrapper.Pattern.Replacement
import ElementWrapper.Source.Reading

/-!
What can go wrong on the way from a component module to its wrapper.
-/

namespace ElementWrapper

/-- Why a module has no wrapper. -/
inductive Failure where
  /-- The source text breaks the grammar; the diagnostic is that of its first error. -/
  | grammar {error : Diagnostic}
  /-- The module says something that a wrapper cannot be made for. -/
  | diagnostic (diagnostic : Diagnostic)
  /-- An escape in a string or a template stands for no code point. -/
  | escape (error : Literal.EscapeError)
  /-- A rewriting rule cannot be applied. -/
  | pattern (error : PatternError)
  /-- The wrapper holds a node without a text. -/
  | unprintable (error : Unprintable)
  deriving DecidableEq

namespace Failure

/-- A complaint about a place in the module. -/
def complaint (message : Text) (location : Option Location) : Failure :=
  .diagnostic { message, location }

/-- The failure with the file that it belongs to. -/
def attach (filename source : Text) : Failure → Failure
  | @grammar error => @grammar (error.attach filename (some source))
  | diagnostic d => .diagnostic (d.attach filename (some source))
  | other => other

/-- Why a source text gives no module. -/
def ofReadError : Source.ReadError → Failure
  | .grammar error => @grammar error
  | .escape error => .escape error

end Failure

end ElementWrapper
