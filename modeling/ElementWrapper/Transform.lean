import ElementWrapper.Harvest
import ElementWrapper.Wrapper

/-!
From the source text of a component module to its metadata, and to the source text of its wrapper.
-/

namespace ElementWrapper

section

variable [Source.Recovery] (config : WrapperConfig) (filename : Text) (source : List Char)

/-- The module of a source text. -/
def parseModule : Except Failure Node := (Source.readModule source).mapError .ofReadError

/-- The metadata of a source text. -/
def inspect : Except Failure Metadata :=
  (parseModule source >>= harvest config filename).mapError
    (.attach filename (Text.ofChars source))

/-- The remarks about the harvest of a source text. -/
def harvestNotes : List Harvest.Note :=
  match parseModule source with
  | .ok program => Harvest.log config filename program
  | .error _ => []

/-- The wrapper module of a source text. -/
def wrap : Except Failure Node :=
  (do
    let metadata ← parseModule source >>= harvest config filename
    synthesize config metadata filename).mapError (.attach filename (Text.ofChars source))

/-- The source text of the wrapper of a source text. -/
def transform : Except Failure Text := do
  (Layout.program {} (← wrap config filename source)).mapError .unprintable

end

end ElementWrapper
