import ElementWrapper.Module.Printer
import ElementWrapper.Proofs.Module.Recursion

/-!
The trees that a wrapper is made of once its templates are lowered, and what their text can tell of
them. A text shows no places and no spellings, and not whether the key of an entry is an identifier
or the string of its name: the `essence` of a tree is what remains, and trees of one essence are
alike but for such keys (`alike_of_essence_eq`).
-/

namespace ElementWrapper

namespace Form

variable {α β : Type}

/-- The form without the spelling of a string. -/
def unspelled : Form α → Form α
  | .string value _ => .string value none
  | form => form

/-- The form with the string of the name in the place of an identifier that is a key. -/
def nameKey : Form Node → Form Node
  | .property (.mk location comments (.identifier name)) value false =>
    .property (.mk location comments (.string name none)) value false
  | form => form

theorem shape_map (f : α → β) (form : Form α) : (form.map f).shape = form.shape := by
  cases form <;> simp [map, shape, Function.comp_def]

theorem shape_unspelled (form : Form α) : form.unspelled.shape = form.shape := by
  cases form <;> rfl

theorem children_unspelled (form : Form α) : form.unspelled.children = form.children := by
  cases form <;> rfl

end Form

namespace Node

theorem alike_mk {location location' : Option Location} {comments comments' : List Comment}
    {form form' : Form Node} :
    (mk location comments form).alike (mk location' comments' form') ↔ comments = comments' ∧
      form.shape = form'.shape ∧
      ∀ pair ∈ form.children.zip form'.children, pair.1.alike pair.2 := by
  rw [alike, fold_mk, Form.shape_map, Form.children_map]
  simp only [Bool.and_eq_true, decide_eq_true_eq, List.all_eq_true, List.zip_map_left,
    List.forall_mem_map, and_assoc]
  rfl

/-- The tree without places and spellings. -/
def erased (node : Node) : Node :=
  node.fold fun _ comments form => .mk none comments (form.map (·.2)).unspelled

/-- The tree in which every key that is an identifier is the string of its name. -/
def withNamedKeys (node : Node) : Node :=
  node.fold fun location comments form => .mk location comments (form.map (·.2)).nameKey

/-- What the text of a tree can tell of it. -/
def essence (node : Node) : Node := node.withNamedKeys.erased

theorem erased_mk (location : Option Location) (comments : List Comment) (form : Form Node) :
    (mk location comments form).erased = mk none comments (form.map erased).unspelled := by
  rw [erased, fold_mk, Form.map_map]
  rfl

theorem withNamedKeys_mk (location : Option Location) (comments : List Comment)
    (form : Form Node) : (mk location comments form).withNamedKeys =
      mk location comments (form.map withNamedKeys).nameKey := by
  rw [withNamedKeys, fold_mk, Form.map_map]
  rfl

/-- Nodes that are the same once places and spellings are erased are alike, form by form. -/
theorem alike_of_erased_eq {node other : Node} (h : node.erased = other.erased) :
    node.alike other := by
  induction node using Node.induction generalizing other with
  | step location comments form ih =>
    obtain ⟨location', comments', form'⟩ := other
    rw [erased_mk, erased_mk, mk.injEq] at h
    obtain ⟨-, sameComments, sameForm⟩ := h
    have sameShape := congrArg Form.shape sameForm
    rw [Form.shape_unspelled, Form.shape_unspelled, Form.shape_map, Form.shape_map] at sameShape
    have sameChildren := congrArg Form.children sameForm
    rw [Form.children_unspelled, Form.children_unspelled, Form.children_map,
      Form.children_map] at sameChildren
    refine alike_mk.2 ⟨sameComments, sameShape, fun pair mem => ?_⟩
    obtain ⟨i, hi, rfl⟩ := List.mem_iff_getElem.1 mem
    rw [List.length_zip, Nat.lt_min] at hi
    rw [List.getElem_zip]
    refine ih _ (List.getElem_mem hi.1) ?_
    have same : (form.children.map erased)[i]? = (form'.children.map erased)[i]? := by
      rw [sameChildren]
    rw [List.getElem?_map, List.getElem?_map, List.getElem?_eq_getElem hi.1,
      List.getElem?_eq_getElem hi.2] at same
    exact Option.some.inj same

theorem alike_of_essence_eq {node other : Node} (h : node.essence = other.essence) :
    node.withNamedKeys.alike other.withNamedKeys :=
  alike_of_erased_eq h

/-- Only an entry has a key that may be named. -/
theorem essence_mk {location : Option Location} {comments : List Comment} {form : Form Node}
    (h : ∀ key value, form ≠ .property key value false) :
    (mk location comments form).essence = mk none comments (form.map essence).unspelled := by
  have same : (form.map withNamedKeys).nameKey = form.map withNamedKeys := by
    cases form with
    | property key value computed =>
      cases computed with
      | true => simp [Form.map, Form.nameKey]
      | false => exact absurd rfl (h key value)
    | _ => rfl
  rw [essence, withNamedKeys_mk, same, erased_mk, Form.map_map]
  rfl

end Node

/-! ## Shapes -/

namespace Printer

/-- A name that looks like no other token. -/
structure IsName (name : Text) : Prop where
  plain : Literal.isPlainName name
  closed : name.getLast? ≠ some (.scalar '\n')
  free : name ∉ [("true" : Text), "false", "null"]

inductive IsIdentifier (name : Text) : Node → Prop
  | mk {location : Option Location} (h : IsName name) :
    IsIdentifier name (.mk location [] (.identifier name))

/-- A string that is printed by its value. -/
inductive IsString (value : Text) : Node → Prop
  | mk {location : Option Location} : IsString value (.mk location [] (.string value none))

/-- The key of an entry for a name. -/
inductive IsKey (name : Text) : Node → Prop
  | identifier {key : Node} (h : IsIdentifier name key) : IsKey name key
  | string {key : Node} (h : IsString name key) : IsKey name key

/-- The places of an expression. An operand is what a member is taken of, or what is called. -/
inductive Place where
  | operand
  | value
  | entry

/-- The expressions of a wrapper, by their places. -/
inductive Stands : Place → Node → Prop
  | identifier {name : Text} {node : Node} (h : IsIdentifier name node) : Stands .operand node
  | string {value : Text} {node : Node} (h : IsString value node) : Stands .operand node
  | member {location : Option Location} {target name : Node} {property : Text}
      (ht : Stands .operand target) (hn : IsIdentifier property name) :
    Stands .operand (.mk location [] (.member target name false))
  | call {location : Option Location} {callee : Node} {arguments : List Node}
      (hc : Stands .operand callee) (ha : ∀ argument ∈ arguments, Stands .value argument) :
    Stands .operand (.mk location [] (.call callee arguments))
  | operand {node : Node} (h : Stands .operand node) : Stands .value node
  | boolean {location : Option Location} {value : Bool} :
    Stands .value (.mk location [] (.boolean value))
  | object {location : Option Location} {entries : List Node}
      (h : ∀ entry ∈ entries, Stands .entry entry) :
    Stands .value (.mk location [] (.object entries))
  | entry {location : Option Location} {name : Text} {key value : Node} (hk : IsKey name key)
      (hv : Stands .value value) : Stands .entry (.mk location [] (.property key value false))

/-- What can be assigned to: a name, or a member of what is named so. -/
inductive IsReference : Node → Prop
  | identifier {name : Text} {node : Node} (h : IsIdentifier name node) : IsReference node
  | member {location : Option Location} {target name : Node} {property : Text}
      (ht : IsReference target) (hn : IsIdentifier property name) :
    IsReference (.mk location [] (.member target name false))

inductive IsDeclaration : Node → Prop
  | mk {location place : Option Location} {kind name : Text} {id value : Node}
      (hk : kind ∈ [("var" : Text), "const"]) (hn : IsIdentifier name id)
      (hv : Stands .value value) :
    IsDeclaration
      (.mk location [] (.variables kind [.mk place [] (.declarator id (some value))]))

inductive IsDefaultImport : Node → Prop
  | mk {location : Option Location} {name : Text} {binding : Node}
      (h : IsIdentifier name binding) :
    IsDefaultImport (.mk location [] (.importDefault binding))

inductive IsNamedImport : Node → Prop
  | mk {location : Option Location} {name source : Text} {binding imported : Node}
      (hb : IsIdentifier name binding) (hi : IsIdentifier source imported) :
    IsNamedImport (.mk location [] (.importSpecifier binding imported))

inductive IsExportSpecifier : Node → Prop
  | mk {location : Option Location} {name target : Text} {binding exported : Node}
      (hb : IsIdentifier name binding) (he : IsIdentifier target exported) :
    IsExportSpecifier (.mk location [] (.exportSpecifier binding exported))

/-- The statements of a wrapper. -/
inductive IsStatement : Node → Prop
  | importDeclaration {location : Option Location} {defaults names : List Node} {path : Text}
      {source : Node} (one : defaults.length ≤ 1)
      (hd : ∀ specifier ∈ defaults, IsDefaultImport specifier)
      (hn : ∀ specifier ∈ names, IsNamedImport specifier) (hs : IsString path source) :
    IsStatement (.mk location [] (.importDeclaration (defaults ++ names) source false))
  | exportFrom {location : Option Location} {specifiers : List Node} {path : Text} {source : Node}
      (h : ∀ specifier ∈ specifiers, IsExportSpecifier specifier) (hs : IsString path source) :
    IsStatement (.mk location [] (.exportNamed none specifiers (some source) false))
  | declaration {node : Node} (h : IsDeclaration node) : IsStatement node
  | exported {location : Option Location} {declaration : Node} (h : IsDeclaration declaration) :
    IsStatement (.mk location [] (.exportNamed (some declaration) [] none false))
  | assignment {location place : Option Location} {left right : Node} (hl : IsReference left)
      (hr : Stands .value right) :
    IsStatement
      (.mk location [] (.expressionStatement (.mk place [] (.assignment left right "="))))
  | exportDefault {location : Option Location} {value : Node} (h : Stands .value value) :
    IsStatement (.mk location [] (.exportDefault value))

/-- The modules that wrappers are. -/
inductive IsModule : Node → Prop
  | mk {location : Option Location} {statements : List Node}
      (h : ∀ statement ∈ statements, IsStatement statement) :
    IsModule (.mk location [] (.program statements))

theorem IsIdentifier.essence_eq {name : Text} {node : Node} (h : IsIdentifier name node) :
    node.essence = .identifier name := by
  obtain ⟨_⟩ := h
  exact Node.essence_mk nofun

theorem IsString.essence_eq {value : Text} {node : Node} (h : IsString value node) :
    node.essence = .string value := by
  obtain ⟨⟩ := h
  exact Node.essence_mk nofun

section

variable {location : Option Location}

theorem essence_member {target name : Node} :
    (Node.mk location [] (.member target name false)).essence =
      .of (.member target.essence name.essence false) := Node.essence_mk nofun

theorem essence_call {callee : Node} {arguments : List Node} :
    (Node.mk location [] (.call callee arguments)).essence =
      .of (.call callee.essence (arguments.map Node.essence)) := Node.essence_mk nofun

theorem essence_boolean {value : Bool} :
    (Node.mk location [] (.boolean value)).essence = .of (.boolean value) := Node.essence_mk nofun

theorem essence_object {entries : List Node} :
    (Node.mk location [] (.object entries)).essence =
      .of (.object (entries.map Node.essence)) := Node.essence_mk nofun

end

theorem essence_entry {location : Option Location} {name : Text} {key value : Node}
    (h : IsKey name key) :
    (Node.mk location [] (.property key value false)).essence =
      .of (.property (.string name) value.essence false) := by
  obtain ⟨⟨_⟩⟩ | ⟨⟨⟩⟩ := h
  · rfl
  · rfl

theorem IsReference.stands {node : Node} (h : IsReference node) : Stands .operand node := by
  induction h with
  | identifier h => exact .identifier h
  | member _ hn ih => exact .member ih hn

end Printer

end ElementWrapper
