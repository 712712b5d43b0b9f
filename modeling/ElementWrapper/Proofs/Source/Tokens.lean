import ElementWrapper.Proofs.Script.Calls
import ElementWrapper.Proofs.Source.Shapes
import ElementWrapper.Source.Reading

/-!
What the text of an expression is made of when the expression is read from a concrete tree. The
tokens of a concrete tree have a text that goes with their kind, and its constructs have a shape
that does: `Fits` says so for one tree, and `Tokenized` for a tree with all trees below it, but for
the sign `?.`, which is no token of an operand. From such a tree an expression is read whose names,
literals and comments are tokens again (`spelled_readWithin`). What is no expression has no text in
one, so that it does not matter what is read below it.
-/

namespace ElementWrapper

/-- Whether a form has no text in an expression, nor in an object. -/
def Form.isMute {α : Type} : Form α → Bool
  | identifier _ | string .. | number _ | boolean _ | null | template .. | property .. | object _
  | member .. | call .. | assignment .. | raw .. => false
  | _ => true

namespace Source

open Literal (EscapeError)
open Script (IsName IsClosed Reads breaksLine)

/-- The kinds of constructs that are names. -/
def nameKinds : List String :=
  ["identifier", "property_identifier", "private_property_identifier",
    "shorthand_property_identifier", "type_identifier", "undefined"]

/-- The text of a token and the shape of a construct go with the kind, and the part of a property is
played by a name. -/
structure Fits (d : Document) (tree : Tree) : Prop where
  name : tree.kind ∈ nameKinds → IsName (d.text tree)
  number : tree.kind = "number" → Reads (d.text tree) .operator 0 []
  string : tree.kind = "string" → breaksLine (d.text tree) = false →
    Reads (d.text tree) .operator 0 []
  comment : tree.isComment → IsClosed (d.comment tree)
  property : tree.field = some "property" → tree.kind ∈ nameKinds
  shape : Shaped d tree

/-- The texts of all tokens in a tree and the shapes of its constructs go with their kinds. -/
inductive Tokenized (d : Document) : Tree → Prop
  | node {tree : Tree} (fits : Fits d tree)
    (parts : ∀ part ∈ tree.children, part.kind ≠ signKind → Tokenized d part) : Tokenized d tree

namespace Tokenized

variable {d : Document} {tree part : Tree}

theorem fits (h : Tokenized d tree) : Fits d tree := by
  obtain ⟨fits, -⟩ := h
  exact fits

theorem of_mem (h : Tokenized d tree) (mem : part ∈ tree.children) (other : part.kind ≠ signKind) :
    Tokenized d part := by
  obtain ⟨-, parts⟩ := h
  exact parts part mem other

theorem sign (h : Tokenized d tree) (mem : part ∈ tree.children) (kind : part.kind = signKind) :
    part.IsSign d := (h.fits.shape.outline.sign part mem kind).1

theorem child {name : String} (h : Tokenized d tree) (eq : tree.child? name = some part) :
    Tokenized d part := by
  have field : part.field = some name := by simpa using List.find?_some eq
  have mem := List.mem_of_find?_eq_some eq
  refine h.of_mem mem fun kind => ?_
  rw [(h.sign mem kind).field] at field
  cases field

theorem property (h : Tokenized d tree) (eq : tree.child? "property" = some part) :
    part.kind ∈ nameKinds :=
  (h.child eq).fits.property (by simpa using List.find?_some eq)

theorem namedChild (h : Tokenized d tree) (mem : part ∈ tree.namedChildren) :
    Tokenized d part := by
  obtain ⟨mem, named⟩ := List.mem_filter.1 mem
  refine h.of_mem mem fun kind => ?_
  rw [(h.sign mem kind).named] at named
  cases named

theorem operand (h : Tokenized d tree) (mem : part ∈ tree.operands) : Tokenized d part :=
  h.namedChild (List.mem_filter.1 mem).1

end Tokenized

/-- The text of a construct, which is a name. -/
def Names (node : Node) : Prop := ∃ text, node.form.word? = some text ∧ IsName text

/-- Trees are read as nodes whose tokens are tokens, and names as names. -/
structure ReadsTokens (d : Document) (read : Tree → Except EscapeError Node) : Prop where
  spelled {tree : Tree} : Tokenized d tree → (read tree).Ensures Script.Spelled
  names {tree : Tree} : Tokenized d tree → tree.kind ∈ nameKinds → (read tree).Ensures Names

namespace Item

/-- The comment of an item is closed, and the tokens of its node are tokens. -/
def Spelled : Item → Prop
  | comment value => IsClosed value
  | decorator node | member node => Script.Spelled node

/-- The entries of an object are spelled as tokens, with the comments that they take. -/
theorem spelled_entries {items : List Item} (spelled : ∀ item ∈ items, Spelled item)
    {comments : List Comment} (closed : ∀ comment ∈ comments, IsClosed comment) :
    ∀ node ∈ entries comments items, Script.Spelled node := by
  induction items generalizing comments with
  | nil => simp [entries]
  | cons item items ih =>
    obtain ⟨first, rest⟩ := List.forall_mem_cons.1 spelled
    cases item with
    | comment value =>
      exact ih rest (List.forall_mem_append.2 ⟨closed, List.forall_mem_singleton.2 first⟩)
    | decorator node | member node =>
      obtain ⟨-, own, also, parts⟩ := first
      exact List.forall_mem_cons.2 ⟨.mk closed own also parts, ih rest nofun⟩

end Item

namespace Document

open Script (Spelled IsLexical)

section

variable {d : Document} {read : Tree → Except EscapeError Node} {tree : Tree}

theorem spelled_place {form : Form Node} (own : IsLexical form)
    (parts : ∀ part ∈ form.printed, Spelled part) : Spelled (d.place tree form) :=
  .mk nofun own trivial parts

/-- A construct that has no text in an expression, or is copied as it stands. -/
theorem spelled_aside {form : Form Node} (own : IsLexical form) (none : form.printed = []) :
    Except.Ensures (pure (d.place tree form) : Except EscapeError Node) Spelled :=
  .pure (spelled_place own (by simp [none]))

/-! ### Constructs that are no expressions -/

/-- What a construct is read as that is no expression, or none that a form exists for: a form
without a text, or the text of the construct. -/
inductive IsAside (d : Document) (tree : Tree) : Node → Prop
  | mute {form : Form Node} (mute : form.isMute) : IsAside d tree (d.place tree form)
  | copied {kind : Text} {operands : List Node} :
    IsAside d tree (d.place tree (.raw kind (d.text tree) operands))

theorem IsAside.spelled {node : Node} (h : IsAside d tree node) : Spelled node := by
  cases h with
  | @mute form mute =>
    cases form with
    | identifier | string | number | boolean | null | template | property | object | member | call
    | assignment | raw => cases mute
    | _ => exact spelled_place trivial nofun
  | copied => exact spelled_place trivial nofun

theorem aside_raw : (d.raw read tree).Ensures (IsAside d tree) :=
  Except.Ensures.bind_of_forall fun _ => .pure .copied

theorem spelled_raw : (d.raw read tree).Ensures Spelled := aside_raw.imp fun _ => IsAside.spelled

theorem aside_importStatement : (d.importStatement read tree).Ensures (IsAside d tree) := by
  unfold importStatement
  split
  · exact aside_raw
  · exact .bind_of_forall fun _ => .bind_of_forall fun _ => .pure (.mute rfl)

theorem aside_exportStatement : (d.exportStatement read tree).Ensures (IsAside d tree) := by
  refine .bind_of_forall fun _ => ?_
  dsimp only
  split
  · refine .bind_of_forall fun _ => ?_
    split
    · exact .pure (.mute rfl)
    · exact .pure (.mute rfl)
  · split
    · exact .bind_of_forall fun _ => .pure (.mute rfl)
    · split
      · exact aside_raw
      · exact .bind_of_forall fun _ => .bind_of_forall fun _ => .pure (.mute rfl)

theorem aside_classDeclaration : (d.classDeclaration read tree).Ensures (IsAside d tree) := by
  refine .bind_of_forall fun _ => .bind_of_forall fun _ => ?_
  dsimp only
  split
  · exact .bind_of_forall fun _ => .pure (.mute rfl)
  · exact .pure (.mute rfl)

theorem aside_method : (d.method read tree).Ensures (IsAside d tree) := by
  unfold method
  split
  · exact aside_raw
  · exact .bind_of_forall fun _ => .bind_of_forall fun _ => .bind_of_forall fun _ =>
      .pure (.mute rfl)

theorem aside_classField : (d.classField read tree).Ensures (IsAside d tree) := by
  unfold classField
  split
  · exact aside_raw
  · exact .bind_of_forall fun _ => .bind_of_forall fun _ => .bind_of_forall fun _ =>
      .pure (.mute rfl)

theorem aside_decorator : (d.decorator read tree).Ensures (IsAside d tree) :=
  .bind_of_forall fun _ => .pure (.mute rfl)

theorem aside_block : (d.block read tree).Ensures (IsAside d tree) :=
  .bind_of_forall fun _ => .pure (.mute rfl)

theorem aside_returnStatement : (d.returnStatement read tree).Ensures (IsAside d tree) :=
  .bind_of_forall fun _ => .pure (.mute rfl)

theorem aside_expressionStatement : (d.expressionStatement read tree).Ensures (IsAside d tree) := by
  unfold expressionStatement
  split
  · exact aside_raw
  · exact .bind_of_forall fun _ => .pure (.mute rfl)

theorem aside_declarator : (d.declarator read tree).Ensures (IsAside d tree) := by
  unfold declarator
  split
  · exact .bind_of_forall fun _ => .bind_of_forall fun _ => .pure (.mute rfl)
  · exact .bind_of_forall fun _ => .bind_of_forall fun _ => .pure (.mute rfl)

theorem aside_variableDeclaration : (d.variableDeclaration read tree).Ensures (IsAside d tree) :=
  .bind_of_forall fun _ => .pure (.mute rfl)

/-! ### Expressions -/

/-- There is a piece of text ahead of each substitution, and one after the last of them. -/
theorem length_quasis (start stop : Nat) (substitutions : List Tree) :
    (d.quasis start stop substitutions).length = substitutions.length + 1 := by
  induction substitutions generalizing start with
  | nil => rfl
  | cons substitution rest ih => rw [quasis, List.length_cons, ih, List.length_cons]

theorem spelled_identifier (h : Tokenized d tree) (kind : tree.kind ∈ nameKinds) :
    Spelled (d.identifier tree) :=
  spelled_place (h.fits.name kind) nofun

theorem spelled_string (h : Tokenized d tree) (kind : tree.kind = "string") :
    (d.string tree).Ensures Spelled :=
  Except.Ensures.bind_of_forall fun _ => spelled_aside (h.fits.string kind) rfl

variable (reads : ReadsTokens d read) (h : Tokenized d tree)

include reads h

theorem spelled_firstOperand : (d.firstOperand read tree).Ensures Spelled := by
  unfold firstOperand
  split
  · next operand _ eq => exact reads.spelled (h.operand (eq ▸ List.mem_cons_self))
  · exact spelled_raw

theorem spelled_key : (d.key read tree).Ensures Spelled := by
  unfold key
  split
  · exact spelled_firstOperand reads h
  · exact reads.spelled h

theorem spelled_call : (d.call read tree).Ensures Spelled := by
  unfold call
  split
  · next callee arguments hc ha =>
    split
    · refine (reads.spelled (h.child hc)).bind fun _ callee => ?_
      refine (Except.Ensures.mapM_of_mem fun argument mem =>
        reads.spelled ((h.child ha).operand mem)).bind fun _ arguments => ?_
      exact .pure (spelled_place trivial (List.forall_mem_cons.2 ⟨callee, arguments⟩))
    · exact spelled_raw
  · exact spelled_raw

/-- The name of an access is spelled as a name unless it stands in brackets. -/
theorem spelled_access {part : String} {computed : Bool}
    (bare : computed = false → ∀ name, tree.child? part = some name → name.kind ∈ nameKinds) :
    (d.access read part computed tree).Ensures Spelled := by
  unfold access
  split
  · next target name ht hn =>
    split
    · exact spelled_raw
    · refine (reads.spelled (h.child ht)).bind fun target own => ?_
      have both : (read name).Ensures fun node => Spelled node ∧ (computed = false → Names node) :=
        fun node eq => ⟨reads.spelled (h.child hn) node eq, fun dot =>
          reads.names (h.child hn) (bare dot name hn) node eq⟩
      refine both.bind fun node named => .pure (spelled_place ?_ ?_)
      · cases computed with
        | true => trivial
        | false => exact named.2 rfl
      · exact List.forall_mem_cons.2 ⟨own, List.forall_mem_singleton.2 named.1⟩
  · exact spelled_raw

theorem spelled_assignment : (d.assignment read tree).Ensures Spelled := by
  unfold assignment
  split
  · next left right hl hr =>
    refine (reads.spelled (h.child hl)).bind fun _ left => ?_
    refine (reads.spelled (h.child hr)).bind fun _ right => .pure (spelled_place rfl ?_)
    exact List.forall_mem_cons.2 ⟨left, List.forall_mem_singleton.2 right⟩
  · exact spelled_raw

/-- An entry of an object is spelled as tokens, and so is its name. -/
theorem spelled_entry : (d.entry read tree).Ensures Spelled := by
  unfold entry
  split
  · split
    · next name value hn hv =>
      refine (spelled_key reads (h.child hn)).bind fun _ key => ?_
      refine (reads.spelled (h.child hv)).bind fun _ value => .pure (spelled_place trivial ?_)
      exact List.forall_mem_cons.2 ⟨key, List.forall_mem_singleton.2 value⟩
    · exact spelled_raw
  · next kind =>
    have name : Spelled (Node.identifier (d.text tree)) :=
      .mk nofun (h.fits.name (by rw [kind]; decide)) trivial nofun
    exact .pure (spelled_place trivial
      (List.forall_mem_cons.2 ⟨name, List.forall_mem_singleton.2 name⟩))
  · exact spelled_raw

theorem spelled_entryItem : (d.entryItem read tree).Ensures Item.Spelled := by
  unfold entryItem
  split
  · next comment => exact .pure (h.fits.comment comment)
  · exact (spelled_entry reads h).bind fun _ entry => .pure entry

theorem spelled_object : (d.object read tree).Ensures Spelled := by
  refine (Except.Ensures.mapM_of_mem fun part mem =>
    spelled_entryItem reads (h.namedChild mem)).bind fun items sound => ?_
  exact .pure (spelled_place trivial (Item.spelled_entries sound nofun))

theorem spelled_template : (d.template read tree).Ensures Spelled := by
  intro node done
  obtain ⟨substitutions, each, same⟩ := Except.bind_eq_ok.1 done
  obtain rfl := Except.pure_eq_ok.1 same
  refine spelled_place ?_ (Except.Ensures.mapM_of_mem (fun part mem => ?_) substitutions each)
  · rw [IsLexical, Except.length_of_mapM each, length_quasis]
    exact Nat.le_succ _
  · exact spelled_firstOperand reads (h.namedChild (List.mem_filter.1 mem).1)

/-! ### All constructs -/

/-- Whatever a construct is read as is spelled as tokens if its parts are. -/
theorem spelled_construct : (d.construct read tree).Ensures Spelled := by
  unfold construct
  split
  all_goals first
    | exact spelled_aside trivial rfl
    | exact aside_importStatement.imp fun _ => IsAside.spelled
    | exact aside_exportStatement.imp fun _ => IsAside.spelled
    | exact aside_classDeclaration.imp fun _ => IsAside.spelled
    | exact aside_method.imp fun _ => IsAside.spelled
    | exact aside_classField.imp fun _ => IsAside.spelled
    | exact aside_decorator.imp fun _ => IsAside.spelled
    | exact aside_block.imp fun _ => IsAside.spelled
    | exact aside_returnStatement.imp fun _ => IsAside.spelled
    | exact aside_expressionStatement.imp fun _ => IsAside.spelled
    | exact aside_variableDeclaration.imp fun _ => IsAside.spelled
    | exact aside_declarator.imp fun _ => IsAside.spelled
    | exact spelled_call reads h
    | exact spelled_access reads h fun _ _ => h.property
    | exact spelled_access reads h nofun
    | exact spelled_assignment reads h
    | exact spelled_object reads h
    | next kind => exact spelled_string h kind
    | exact spelled_template reads h
    | next kind => exact .pure (spelled_place (h.fits.number kind) nofun)
    | exact spelled_raw
    | next kind => exact .pure (spelled_identifier h (by rw [kind]; decide))

end

theorem construct_name {d : Document} {read : Tree → Except EscapeError Node} {tree : Tree}
    (kind : tree.kind ∈ nameKinds) : d.construct read tree = .ok (d.identifier tree) := by
  unfold construct
  split
  all_goals first
    | rfl
    | simp_all [nameKinds]

theorem readsTokens_readWithin (d : Document) (levels : Nat) :
    ReadsTokens d (d.readWithin levels) := by
  induction levels with
  | zero =>
    exact ⟨fun _ => spelled_aside trivial rfl, fun h kind => .pure ⟨_, rfl, h.fits.name kind⟩⟩
  | succ levels ih =>
    refine ⟨spelled_construct ih, fun h kind => ?_⟩
    rw [readWithin, construct_name kind]
    exact .pure ⟨_, rfl, h.fits.name kind⟩

/-- The sign is copied as it stands. -/
theorem spelled_sign {d : Document} {tree : Tree} (kind : tree.kind = signKind) (levels : Nat) :
    (d.readWithin levels tree).Ensures Spelled := by
  cases levels with
  | zero => exact spelled_aside trivial rfl
  | succ levels =>
    simp only [readWithin, construct, kind, signKind]
    exact spelled_raw

end Document

end Source

end ElementWrapper
