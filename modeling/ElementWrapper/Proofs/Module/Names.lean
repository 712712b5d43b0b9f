import ElementWrapper.Proofs.Module.Lowering

/-!
The names that a tree uses and those that it binds. Names of members and keys of entries are no uses
unless they are computed, nor are the names under which something is imported or exported. Lowering
changes neither the uses nor the bindings (`uses_lowered`, `binds_lowered`).
-/

namespace ElementWrapper

/-- The names that a form uses, from those that its subtrees use. A template uses no more
substitutions than it has pieces. -/
def Form.used : Form (List Text) → List Text
  | .identifier name => [name]
  | .template quasis expressions => (expressions.take quasis.length).flatten
  | .property _ value false => value
  | .member target _ false => target
  | .classField _ value _ false decorators => value.getD [] ++ decorators.flatten
  | .classMethod _ _ _ false decorators body => decorators.flatten ++ body.getD []
  | .classDeclaration _ superClass decorators body =>
    superClass.getD [] ++ decorators.flatten ++ body.flatten
  | .declarator _ init => init.getD []
  | .importDefault _ | .importNamespace _ | .importSpecifier .. | .importDeclaration .. => []
  | .exportSpecifier binding _ => binding
  | .exportNamed declaration _ (some _) _ => declaration.getD []
  | form => form.children.flatten

/-- The names that a form binds, from those that its subtrees bind. -/
def Form.bound : Form (List Text) → List Text
  | .identifier name => [name]
  | .importDefault binding | .importNamespace binding | .importSpecifier binding _ => binding
  | .importDeclaration specifiers _ false => specifiers.flatten
  | .declarator id _ => id
  | .variables _ declarations => declarations.flatten
  | .exportNamed declaration _ _ _ => declaration.getD []
  | _ => []

namespace Node

/-- The names that a tree uses. -/
def uses (node : Node) : List Text := node.reduce Form.used

/-- The names that a statement binds by its imports or its variables; an identifier stands for the
name to be bound. -/
def binds (node : Node) : List Text := node.reduce Form.bound

/-- Every name that a module uses is bound in it, unless it is that of the global `Object`. -/
def Closed (program : Node) : Prop :=
  ∀ name ∈ program.statements.flatMap uses,
    name = ("Object" : Text) ∨ name ∈ program.statements.flatMap binds

theorem uses_mk (location : Option Location) (comments : List Comment) (form : Form Node) :
    (mk location comments form).uses = (form.map uses).used :=
  reduce_mk Form.used location comments form

theorem binds_mk (location : Option Location) (comments : List Comment) (form : Form Node) :
    (mk location comments form).binds = (form.map binds).bound :=
  reduce_mk Form.bound location comments form

@[simp] theorem uses_identifier (name : Text) : (identifier name).uses = [name] := rfl

@[simp] theorem uses_string (value : Text) : (string value).uses = [] := rfl

@[simp] theorem uses_memberNamed (target name : Text) : (memberNamed target name).uses = [target] :=
  rfl

theorem uses_call (location : Option Location) (comments : List Comment) (callee : Node)
    (arguments : List Node) :
    (mk location comments (.call callee arguments)).uses =
      callee.uses ++ arguments.flatMap uses := by
  rw [uses_mk, List.flatMap_def]
  rfl

end Node

namespace Lowering

open Node

/-- What is made of a tree stays the same if it does at each template. -/
theorem reduce_of_lower {combine : Form β → β}
    (template : ∀ {quasis expressions pieces}, parts quasis expressions = .ok pieces →
      (ofParts pieces).reduce combine =
        combine (.template (quasis.map (reduce combine)) (expressions.map (reduce combine))))
    {node result : Node} (h : lower node = .ok result) :
    result.reduce combine = node.reduce combine := by
  induction node using Node.induction generalizing result with
  | step location comments form ih =>
    have children := lower_children h
    have same : (form.map lowered).map (reduce combine) = form.map (reduce combine) := by
      rw [Form.map_map]
      exact Form.map_congr fun child mem => ih child mem (children child mem)
    rw [reduce_mk, ← same]
    obtain ⟨quasis, expressions, rfl⟩ | ne := form.template_or_ne
    · rw [lower_mk children] at h
      obtain ⟨pieces, hp, rfl⟩ := lowerTemplate_template.1 h
      have root : (mk location comments (ofParts pieces).form).reduce combine =
          (ofParts pieces).reduce combine := reduce_congr combine rfl
      exact root.trans (template hp)
    · obtain rfl := Except.ok.inj ((lower_of_ne ne children).symm.trans h)
      rw [reduce_mk]

/-! ## Uses -/

theorem uses_push (chain : Chain) (part : Node) :
    (chain.push part).node.uses = chain.node.uses ++ part.uses := by
  simp only [Chain.push]
  split
  · next hn _ => simp [hn, uses_call]
  · simp [concatCall, Node.of, uses_mk, Form.map, Form.used, Form.children]

theorem uses_foldl_push (parts : List Node) (chain : Chain) :
    (parts.foldl Chain.push chain).node.uses = chain.node.uses ++ parts.flatMap uses := by
  induction parts generalizing chain with
  | nil => simp
  | cons part parts ih => simp [ih, uses_push]

theorem uses_ofParts (parts : List Node) : (ofParts parts).uses = parts.flatMap uses := by
  cases parts with
  | nil => rfl
  | cons head rest =>
    simp only [ofParts, concatenation]
    split <;> simp [uses_foldl_push, uses_push]

/-- The parts of a template mention the names in its expressions, as far as there are pieces of text
before them. -/
theorem uses_parts {quasis expressions pieces : List Node}
    (h : parts quasis expressions = .ok pieces) :
    pieces.flatMap uses = (expressions.take quasis.length).flatMap uses := by
  induction quasis generalizing expressions pieces with
  | nil =>
    obtain rfl := Except.ok.inj h
    simp
  | cons quasi quasis ih =>
    simp only [parts, Except.bind_eq_ok, Except.pure_eq_ok] at h
    obtain ⟨cooked, _, rest, hr, rfl⟩ := h
    have piece : (if cooked.isEmpty then [] else [Node.string cooked]).flatMap uses = [] := by
      split <;> simp
    rw [List.flatMap_append, List.flatMap_append, ih hr, piece]
    cases expressions with
    | nil => simp
    | cons expression expressions =>
      cases he : isEmptyString expression with
      | false => simp [he]
      | true =>
        have none : expression.uses = [] := by
          obtain ⟨_, hf⟩ := eq_empty_of_isEmptyString he
          obtain ⟨_, _, form⟩ := expression
          obtain rfl : form = _ := hf
          rfl
        simp [he, none]

/-- **Lowering changes no use** of a name. -/
theorem uses_of_lower {node result : Node} (h : lower node = .ok result) :
    result.uses = node.uses := by
  refine reduce_of_lower (fun hp => (uses_ofParts _).trans ((uses_parts hp).trans ?_)) h
  rw [Form.used, ← List.map_take, List.length_map, List.flatMap_def]
  rfl

/-! ## Bindings -/

theorem IsStringOrCall.binds {node : Node} (h : IsStringOrCall node) : node.binds = [] := by
  obtain ⟨location, comments, form⟩ := node
  obtain ⟨_, _, hf⟩ | ⟨_, _, hf⟩ := h
  · obtain rfl : form = _ := hf
    rw [binds_mk]
    rfl
  · obtain rfl : form = _ := hf
    rw [binds_mk]
    rfl

/-- **Lowering changes no binding**. -/
theorem binds_of_lower {node result : Node} (h : lower node = .ok result) :
    result.binds = node.binds :=
  reduce_of_lower (fun {_ _ pieces} _ => (ofParts_isStringOrCall pieces).binds) h

end Lowering

end ElementWrapper
