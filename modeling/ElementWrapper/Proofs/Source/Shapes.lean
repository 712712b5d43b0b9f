import ElementWrapper.Source.Tree

/-!
The shape of concrete trees, as far as the reading of expressions rests on it. Punctuation, comments
and literals are single tokens. The sign `?.` stands only in a call or in a chain of its own. An
access, a call, an assignment and an entry of an object have two parts in order, and `joint?` lists
what may stand beside them. A template and the body of a class have parts of a few kinds only.
-/

namespace ElementWrapper.Source

/-- The kind of the sign of an access or a call that is skipped when its target is missing. -/
def signKind : String := "?."

/-- The kinds of constructs that have the sign among their parts. -/
def signedKinds : List String := ["call_expression", "optional_chain"]

/-- The kinds of constructs that are single tokens. -/
def leafKinds : List String :=
  ["shorthand_property_identifier", "string", "true", "false", "null", Tree.commentKind]

/-- The kinds of constructs with one operand. -/
def singleKinds : List String := ["template_substitution", "computed_property_name"]

/-- How a construct is joined: the names of its first part and of the other one, and the kinds of
the constructs that may stand beside them. -/
structure Joint where
  first : String
  second : String
  beside : List String

/-- How the constructs of a kind are joined. -/
def joint? : String → Option Joint
  | "member_expression" => some ⟨"object", "property", ["optional_chain", "type_arguments"]⟩
  | "subscript_expression" => some ⟨"object", "index", ["optional_chain"]⟩
  | "call_expression" => some ⟨"function", "arguments", ["type_arguments"]⟩
  | "assignment_expression" => some ⟨"left", "right", []⟩
  | "pair" => some ⟨"key", "value", []⟩
  | _ => none

/-- The kinds of the members that a body of a class may have, and of what stands beside them. -/
def memberKinds : List String :=
  ["decorator", "method_definition", "class_static_block", "abstract_method_signature",
    "index_signature", "method_signature", "public_field_definition"]

/-- The kinds of the constructs that may be parts of a template or of a body of a class. -/
def partKinds? : String → Option (List String)
  | "template_string" => some ["template_substitution"]
  | "class_body" => some memberKinds
  | _ => none

/-- The names of the parts that come second. -/
def secondNames : List String := ["property", "index", "arguments", "right", "value"]

/-- The kinds of constructs whose parts matter, and of tokens that are constructs. -/
def shapedKinds : List String :=
  ["true", "false", "null", "member_expression", "subscript_expression", "call_expression",
    "assignment_expression", "pair", "template_string", "class_body"] ++ singleKinds

namespace Tree

/-- Whether the tree is a construct of the grammar and no comment. -/
def isOperand (tree : Tree) : Bool := tree.named && !tree.isComment

/-- Whether the tree plays a part that comes second. -/
def isSecond (tree : Tree) : Bool := tree.field.any secondNames.contains

theorem operands_eq (tree : Tree) : tree.operands = tree.children.filter isOperand := by
  rw [operands, namedChildren, List.filter_filter]
  exact List.filter_congr fun part _ => Bool.and_comm ..

/-- The tree is the sign itself. -/
structure IsSign (d : Document) (tree : Tree) : Prop where
  kind : tree.kind = signKind
  text : d.text tree = Text.ofString signKind
  named : tree.named = false
  field : tree.field = none
  children : tree.children = []

/-- The tree is of one of some kinds, or is no construct. -/
def IsAmong (kinds : List String) (tree : Tree) : Prop := tree.isOperand → tree.kind ∈ kinds

/-- The tree stands beside the parts of a construct. -/
structure IsBeside (kinds : List String) (tree : Tree) : Prop where
  other : tree.isSecond = false
  kind : tree.IsAmong kinds

end Tree

/-! ## Lists with one exception -/

/-- All items of a list have a property but one at most, which has another one. -/
inductive AllButOne {α : Type} (plain special : α → Prop) : List α → Prop
  | nil : AllButOne plain special []
  | plain {item : α} {items : List α} (own : plain item) (rest : AllButOne plain special items) :
    AllButOne plain special (item :: items)
  | special {item : α} {items : List α} (own : special item) (rest : ∀ item ∈ items, plain item) :
    AllButOne plain special (item :: items)

namespace AllButOne

variable {α : Type} {plain special : α → Prop} {first second : List α}

theorem of_forall (h : ∀ item ∈ first, plain item) : AllButOne plain special first := by
  induction first with
  | nil => exact .nil
  | cons item items ih =>
    obtain ⟨own, rest⟩ := List.forall_mem_cons.1 h
    exact .plain own (ih rest)

theorem singleton {item : α} (h : special item) : AllButOne plain special [item] :=
  .special h nofun

theorem append_left (hf : ∀ item ∈ first, plain item) (hs : AllButOne plain special second) :
    AllButOne plain special (first ++ second) := by
  induction first with
  | nil => exact hs
  | cons item items ih =>
    obtain ⟨own, rest⟩ := List.forall_mem_cons.1 hf
    exact .plain own (ih rest)

theorem append_right (hf : AllButOne plain special first) (hs : ∀ item ∈ second, plain item) :
    AllButOne plain special (first ++ second) := by
  induction hf with
  | nil => exact .of_forall hs
  | plain own _ ih => exact .plain own ih
  | special own rest => exact .special own (List.forall_mem_append.2 ⟨rest, hs⟩)

theorem weaken {other : α → Prop} (h : AllButOne plain other first)
    (imp : ∀ item ∈ first, other item → plain item ∨ special item) :
    AllButOne plain special first := by
  induction h with
  | nil => exact .nil
  | plain own _ ih => exact .plain own (ih (List.forall_mem_cons.1 imp).2)
  | special own rest =>
    obtain plain | special := (List.forall_mem_cons.1 imp).1 own
    · exact .plain plain (.of_forall rest)
    · exact .special special rest

/-- The exception splits the list. -/
theorem split {item : α} (h : AllButOne plain special first) (mem : item ∈ first)
    (other : ¬ plain item) :
    ∃ before after, first = before ++ item :: after ∧ ∀ item ∈ before ++ after, plain item := by
  induction h with
  | nil => cases mem
  | @plain head items own rest ih =>
    obtain rfl | later := List.mem_cons.1 mem
    · exact absurd own other
    · obtain ⟨before, after, rfl, others⟩ := ih later
      exact ⟨head :: before, after, rfl, List.forall_mem_cons.2 ⟨own, others⟩⟩
  | @special head items own rest =>
    obtain rfl | later := List.mem_cons.1 mem
    · exact ⟨[], items, rfl, rest⟩
    · exact absurd (rest item later) other

end AllButOne

/-! ## Shapes -/

/-- The parts of a construct stand as its kind has them. -/
structure Outline (d : Document) (kind : String) (children : List Tree) : Prop where
  sign : ∀ part ∈ children, part.kind = signKind → part.IsSign d ∧ kind ∈ signedKinds
  joint : ∀ joint, joint? kind = some joint → ∀ head rest, children = head :: rest →
    head.field = some joint.first ∧
      AllButOne (Tree.IsBeside joint.beside) (·.field = some joint.second) rest
  single : kind ∈ singleKinds → AllButOne (·.isOperand = false) (fun _ => True) children
  parts : ∀ kinds, partKinds? kind = some kinds → ∀ part ∈ children, part.IsAmong kinds

namespace Outline

variable {d : Document} {kind : String} {children : List Tree} {joint : Joint}

theorem nil : Outline d kind [] :=
  ⟨nofun, fun _ _ _ _ => nofun, fun _ => .nil, fun _ _ => nofun⟩

theorem partKinds?_of_joint (h : joint? kind = some joint) : partKinds? kind = none := by
  unfold partKinds?
  split
  · cases h
  · cases h
  · rfl

/-- What is asked of a construct that is joined. -/
theorem of_joint (h : joint? kind = some joint)
    (sign : ∀ part ∈ children, part.kind = signKind → part.IsSign d ∧ kind ∈ signedKinds)
    (parts : ∀ head rest, children = head :: rest → head.field = some joint.first ∧
      AllButOne (Tree.IsBeside joint.beside) (·.field = some joint.second) rest) :
    Outline d kind children where
  sign := sign
  joint other eq := by
    obtain rfl := Option.some.inj (h.symm.trans eq)
    exact parts
  single mem := by
    have others : ∀ kind ∈ singleKinds, joint? kind = none := by decide
    rw [others kind mem] at h
    cases h
  parts kinds eq := by
    rw [partKinds?_of_joint h] at eq
    cases eq

theorem of_not_mem (plain : kind ∉ shapedKinds) (sign : ∀ part ∈ children, part.kind ≠ signKind) :
    Outline d kind children where
  sign part mem eq := absurd eq (sign part mem)
  joint joint eq := by
    refine absurd ?_ plain
    unfold joint? at eq
    split at eq
    all_goals first | decide | cases eq
  single mem := absurd (List.mem_append_right _ mem) plain
  parts kinds eq := by
    refine absurd ?_ plain
    unfold partKinds? at eq
    split at eq
    all_goals first | decide | cases eq

end Outline

/-- A tree has the shape that goes with its kind. -/
structure Shaped (d : Document) (tree : Tree) : Prop where
  kind : tree.kind ≠ signKind
  leaf : tree.named = false ∨ tree.kind ∈ leafKinds → tree.children = []
  comment : tree.isComment → tree.isSecond = false
  outline : Outline d tree.kind tree.children

end ElementWrapper.Source
