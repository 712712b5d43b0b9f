import ElementWrapper.Proofs.Module.Lowering
import ElementWrapper.Wrapper

/-!
The statements of a wrapper. A synthesis that succeeds gives what stands before the wrapper itself
and then the statements of its kind, each of them lowered if the configuration asks for it.
-/

namespace ElementWrapper

namespace Wrapper

variable (config : WrapperConfig)

/-- The properties and events, or the checks, of a class together with those of its parent. -/
def inherited (m : Metadata) (parent : Text) (own : Node) : Node :=
  if m.parentSource.any (!·.isEmpty) then merged parent own else own

/-- The statements of the wrapper itself: of an element, of an abstract class, or none. -/
def ownBody (m : Metadata) (filename : Text) (serializers : List Text) (descriptor checks : Node) :
    List Node :=
  match m.elementName, m.className with
  | some name, _ => elementBody config filename name serializers descriptor checks
  | none, some _ => abstractBody config m serializers descriptor checks
  | none, none => []

/-- What becomes of a statement. -/
def settle (statement : Node) : Node :=
  match config.templates with
  | .concat => Lowering.lowered statement
  | .preserve => statement

variable {config}

theorem settle_of_templateFree {statement : Node} (h : TemplateFree statement) :
    settle config statement = statement := by
  rw [settle]
  split
  · exact Lowering.lowered_eq (Lowering.lower_of_templateFree h)
  · rfl

theorem body_eq_ok {m : Metadata} {filename : Text} {statements : List Node}
    (h : body config m filename = .ok statements) :
    ∃ entries serializers checks, propertyEntries m.properties [] = .ok (entries, serializers) ∧
      propertyChecks m.properties = .ok checks ∧
      statements = preamble config m ++ ownBody config m filename serializers
        (inherited m parentDescriptor (object (entries ++ eventEntries m.events)))
        (inherited m parentChecks (object (checks ++ eventChecks m.events))) := by
  simp only [body, Except.bind_eq_ok, Except.pure_eq_ok] at h
  obtain ⟨⟨entries, serializers⟩, he, checks, hc, rfl⟩ := h
  exact ⟨entries, serializers, checks, he, hc, rfl⟩

end Wrapper

open Wrapper Lowering

/-- **The statements of a wrapper** are those of its body, each of them settled. -/
theorem synthesize_eq_ok {config : WrapperConfig} {m : Metadata} {filename : Text} {wrapper : Node}
    (h : synthesize config m filename = .ok wrapper) :
    ∃ statements,
      body config m (if filename.isEmpty then m.filename else filename) = .ok statements ∧
      wrapper.statements = statements.map (settle config) ∧
      (config.templates = .concat →
        ∀ statement ∈ statements, lower statement = .ok (lowered statement)) := by
  simp only [synthesize, Except.bind_eq_ok] at h
  obtain ⟨statements, hb, h⟩ := h
  refine ⟨statements, hb, ?_⟩
  cases ht : config.templates with
  | preserve =>
    simp only [ht, Except.pure_eq_ok] at h
    have settle : settle config = id := funext fun statement => by rw [settle, ht]; rfl
    rw [← h, settle, List.map_id]
    exact ⟨rfl, fun concat => by cases concat⟩
  | concat =>
    simp only [ht, Except.mapError_eq_ok] at h
    have children := lower_children h
    have settle : settle config = lowered := funext fun statement => by rw [settle, ht]
    rw [Node.of, lower_of_ne rfl children, Except.ok.injEq] at h
    rw [← h, settle]
    exact ⟨rfl, fun _ => children⟩

end ElementWrapper
