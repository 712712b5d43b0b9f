import ElementWrapper.Proofs.Result
import ElementWrapper.Source.Reading

/-!
Which nodes of a module have a place. Whatever a construct is read as has the place where its tree
begins, and so have its parts, but for the few that are made up while their parent is read: `Bare`
lists them, one constructor for each. None of them has parts of its own, so that `Placed` reaches
every other node. There is one lemma for each function that reads a construct, given that the trees
below it are read as placed nodes, and the bound on the levels carries the induction.
-/

namespace ElementWrapper.Source

open Literal (EscapeError)

/-- A part that its parent is read with and that has no place of its own: a piece of the text of a
template, a name of a specifier, the key and the value of an entry that is a name alone. -/
inductive Bare : Form Node → Node → Prop
  | piece {pieces expressions source tail} :
    Bare (.template pieces expressions) (.of (.quasi source tail))
  | defaultName {name} : Bare (.importDefault (.identifier name)) (.identifier name)
  | wholeName {name} : Bare (.importNamespace (.identifier name)) (.identifier name)
  | importedAs {name imported} :
    Bare (.importSpecifier (.identifier name) imported) (.identifier name)
  | exportedAs {binding name} :
    Bare (.exportSpecifier binding (.identifier name)) (.identifier name)
  | shorthand {name} :
    Bare (.property (.identifier name) (.identifier name) false) (.identifier name)

/-- A construct with a place, whose parts have places as well unless they are bare. -/
inductive Placed : Node → Prop
  | construct {place comments form}
    (parts : ∀ part ∈ form.children, ¬ Bare form part → Placed part) :
    Placed (.mk (some place) comments form)

theorem Bare.children {form : Form Node} {part : Node} (h : Bare form part) :
    part.children = [] := by
  cases h <;> rfl

namespace Placed

variable {node : Node} {location : Option Location} {comments : List Comment}
  {form : Form Node}

theorem location_ne_none (h : Placed node) : node.location ≠ none := by
  cases h
  nofun

theorem of_mem {child : Node} (h : Placed node) (mem : child ∈ node.children)
    (own : ¬ Bare node.form child) : Placed child := by
  obtain ⟨parts⟩ := h
  exact parts child mem own

/-- A construct none of whose parts can be bare. -/
theorem iff_of_whole (whole : ∀ part, ¬ Bare form part) :
    Placed (.mk location comments form) ↔
      location ≠ none ∧ ∀ part ∈ form.children, Placed part := by
  constructor
  · exact fun h => ⟨h.location_ne_none, fun part mem => h.of_mem mem (whole part)⟩
  · rintro ⟨written, parts⟩
    obtain ⟨place, rfl⟩ := Option.ne_none_iff_exists'.1 written
    exact .construct fun part mem _ => parts part mem

theorem withComments (h : Placed node) (comments : List Comment) :
    Placed (node.withComments comments) := by
  obtain ⟨parts⟩ := h
  exact .construct parts

end Placed

/-! ## Bodies -/

namespace Item

/-- The node of an item, if it has one, is placed. -/
def Sound : Item → Prop
  | comment _ => True
  | decorator node | member node => Placed node

theorem placed_commented {node : Node} (h : Placed node) (comments : List Comment) :
    Placed (commented comments node) := h.withComments _

/-- A member takes the decorators before it among its parts, or they stay loose; all of them keep
their places. -/
theorem placed_decorated {decorators : List Node} {node : Node}
    (hd : ∀ decorator ∈ decorators, Placed decorator) (h : Placed node) :
    (∀ loose ∈ (decorated decorators node).1, Placed loose) ∧
      Placed (decorated decorators node).2 := by
  obtain ⟨location, comments, form⟩ := node
  cases form with
  | classMethod | classField | raw =>
    obtain ⟨written, parts⟩ := (Placed.iff_of_whole (by nofun)).1 h
    refine ⟨by simp [decorated], (Placed.iff_of_whole (by nofun)).2 ⟨written, ?_⟩⟩
    simp only [Form.children, List.forall_mem_append, List.forall_mem_cons] at parts ⊢
    tauto
  | _ => exact ⟨hd, h⟩

/-- Comments that go from a statement to its class change no place. -/
theorem placed_shareComments {node : Node} (h : Placed node) : Placed (shareComments node) := by
  obtain ⟨location, comments, form⟩ := node
  cases form with
  | exportNamed declaration specifiers source typeOnly =>
    obtain ⟨written, parts⟩ := (Placed.iff_of_whole (by rintro _ ⟨⟩)).1 h
    refine (Placed.iff_of_whole (by rintro _ ⟨⟩)).2 ⟨written, ?_⟩
    cases declaration with
    | none => exact parts
    | some declaration =>
      obtain ⟨first, rest⟩ := List.forall_mem_cons.1 parts
      refine List.forall_mem_cons.2 ⟨?_, rest⟩
      beta_reduce
      split
      · exact first.withComments comments
      · exact first
  | exportDefault declaration =>
    obtain ⟨written, parts⟩ := (Placed.iff_of_whole (by rintro _ ⟨⟩)).1 h
    have first := List.forall_mem_singleton.1 parts
    refine (Placed.iff_of_whole (by rintro _ ⟨⟩)).2 ⟨written, List.forall_mem_singleton.2 ?_⟩
    beta_reduce
    split
    · exact first.withComments comments
    · exact first
  | _ => exact h

/-- The members of a class have places, with the decorators that they take and those that stay
loose. -/
theorem placed_classMembers {items : List Item} (sound : ∀ item ∈ items, Sound item)
    (comments : List Comment) {decorators : List Node}
    (hd : ∀ decorator ∈ decorators, Placed decorator) :
    ∀ node ∈ classMembers comments decorators items, Placed node := by
  induction items generalizing comments decorators with
  | nil => exact hd
  | cons item items ih =>
    obtain ⟨first, rest⟩ := List.forall_mem_cons.1 sound
    cases item with
    | comment value => exact ih rest _ hd
    | decorator node =>
      exact ih rest _ (List.forall_mem_append.2 ⟨hd, List.forall_mem_singleton.2 first⟩)
    | member node =>
      obtain ⟨loose, whole⟩ := placed_decorated hd first
      refine List.forall_mem_append.2 ⟨loose, List.forall_mem_cons.2 ⟨?_, ih rest [] (by simp)⟩⟩
      exact placed_commented whole comments

theorem placed_statements {items : List Item} (sound : ∀ item ∈ items, Sound item)
    (comments : List Comment) : ∀ node ∈ statements comments items, Placed node := by
  induction items generalizing comments with
  | nil => simp [statements]
  | cons item items ih =>
    obtain ⟨first, rest⟩ := List.forall_mem_cons.1 sound
    cases item with
    | comment value => exact ih rest _
    | decorator node | member node =>
      exact List.forall_mem_cons.2
        ⟨placed_shareComments (placed_commented first comments), ih rest []⟩

theorem placed_entries {items : List Item} (sound : ∀ item ∈ items, Sound item)
    (comments : List Comment) : ∀ node ∈ entries comments items, Placed node := by
  induction items generalizing comments with
  | nil => simp [entries]
  | cons item items ih =>
    obtain ⟨first, rest⟩ := List.forall_mem_cons.1 sound
    cases item with
    | comment value => exact ih rest _
    | decorator node | member node =>
      exact List.forall_mem_cons.2 ⟨Placed.withComments first comments, ih rest []⟩

end Item

/-! ## Constructs -/

namespace Document

section

variable {d : Document} {read : Tree → Except EscapeError Node}
  (reads : ∀ tree, (read tree).Ensures Placed)

/-- A form whose parts are all placed where it was written. -/
theorem placed_place {tree : Tree} {form : Form Node}
    (parts : ∀ part ∈ form.children, Placed part) : Placed (d.place tree form) :=
  .construct fun part mem _ => parts part mem

theorem placed_pair {first second : Node} (hf : Placed first) (hs : Placed second) :
    ∀ part ∈ [first, second], Placed part :=
  List.forall_mem_cons.2 ⟨hf, List.forall_mem_singleton.2 hs⟩

theorem placed_identifier (tree : Tree) : Placed (d.identifier tree) :=
  placed_place (by simp [Form.children])

theorem placed_string (tree : Tree) : (d.string tree).Ensures Placed :=
  Except.Ensures.bind (P := fun _ => True) (fun _ _ => trivial) fun _ _ =>
    Except.Ensures.pure (placed_place (by simp [Form.children]))

include reads

theorem placed_raw (tree : Tree) : (d.raw read tree).Ensures Placed :=
  (Except.Ensures.mapM reads tree.operands).bind fun _ parts =>
    Except.Ensures.pure (placed_place parts)

theorem placed_firstOperand (tree : Tree) : (d.firstOperand read tree).Ensures Placed := by
  unfold firstOperand
  split
  · exact reads _
  · exact placed_raw reads tree

theorem placed_decorator (tree : Tree) : (d.decorator read tree).Ensures Placed :=
  (placed_firstOperand reads tree).bind fun _ h =>
    Except.Ensures.pure (placed_place (by simpa [Form.children] using h))

theorem placed_decorators (tree : Tree) :
    (d.decorators read tree).Ensures fun nodes => ∀ node ∈ nodes, Placed node :=
  .mapM (placed_decorator reads) _

theorem sound_item (tree : Tree) : (d.item read tree).Ensures Item.Sound := by
  unfold item
  split
  · exact Except.Ensures.pure trivial
  · exact (reads tree).bind fun _ h => Except.Ensures.pure h

theorem sound_classItem (tree : Tree) : (d.classItem read tree).Ensures Item.Sound := by
  unfold classItem
  split
  · exact Except.Ensures.pure trivial
  split
  · exact (placed_decorator reads tree).bind fun _ h => Except.Ensures.pure h
  · exact (reads tree).bind fun _ h => Except.Ensures.pure h

theorem placed_statements (tree : Tree) :
    (d.statements read tree).Ensures fun nodes => ∀ node ∈ nodes, Placed node :=
  (Except.Ensures.mapM (sound_item reads) _).bind fun _ sound =>
    Except.Ensures.pure (Item.placed_statements sound [])

theorem placed_block (tree : Tree) : (d.block read tree).Ensures Placed :=
  (placed_statements reads tree).bind fun _ parts => Except.Ensures.pure (placed_place parts)

/-! ### Imports and exports -/

omit reads in
theorem placed_moduleName (tree : Tree) : (d.moduleName tree).Ensures Placed := by
  unfold moduleName
  split
  · exact (placed_string tree).bind fun _ _ =>
      Except.Ensures.pure (placed_place (by simp [Form.children]))
  · exact Except.Ensures.pure (placed_identifier tree)

omit reads in
theorem placed_importSpecifier (tree : Tree) :
    (d.importSpecifier tree).Ensures fun nodes => ∀ node ∈ nodes, Placed node := by
  unfold importSpecifier
  split
  · exact .pure (List.forall_mem_nil _)
  cases tree.child? "name" with
  | none => exact .pure (List.forall_mem_nil _)
  | some name =>
    refine (placed_moduleName name).bind fun imported h => Except.Ensures.pure ?_
    refine List.forall_mem_singleton.2 (.construct fun part mem own => ?_)
    obtain rfl | rfl : part = .identifier _ ∨ part = imported := by simpa [Form.children] using mem
    · exact absurd .importedAs own
    · exact h

omit reads in
theorem placed_importPart (tree : Tree) :
    (d.importPart tree).Ensures fun nodes => ∀ node ∈ nodes, Placed node := by
  unfold importPart
  split
  · refine Except.Ensures.pure (List.forall_mem_singleton.2 (.construct fun part mem own => ?_))
    obtain rfl := List.mem_singleton.1 mem
    exact absurd .defaultName own
  · refine Except.Ensures.pure (List.forall_mem_map.2 fun name _ =>
      .construct fun part mem own => ?_)
    obtain rfl := List.mem_singleton.1 mem
    exact absurd .wholeName own
  · exact (Except.Ensures.mapM placed_importSpecifier _).bind fun _ parts =>
      Except.Ensures.pure (List.forall_mem_flatten.2 parts)
  · exact .pure (List.forall_mem_nil _)

theorem placed_importStatement (tree : Tree) : (d.importStatement read tree).Ensures Placed := by
  unfold importStatement
  cases tree.child? "source" with
  | none => exact placed_raw reads tree
  | some source =>
    refine (Except.Ensures.mapM placed_importPart _).bind fun _ specifiers => ?_
    refine (placed_string source).bind fun _ source => .pure (placed_place ?_)
    exact List.forall_mem_append.2
      ⟨List.forall_mem_flatten.2 specifiers, List.forall_mem_singleton.2 source⟩

omit reads in
theorem placed_exportSpecifier (tree : Tree) :
    (d.exportSpecifier tree).Ensures fun nodes => ∀ node ∈ nodes, Placed node := by
  unfold exportSpecifier
  split
  · exact .pure (List.forall_mem_nil _)
  cases tree.child? "name" with
  | none => exact .pure (List.forall_mem_nil _)
  | some name =>
    refine (placed_moduleName name).bind fun binding hb => ?_
    cases tree.child? "alias" with
    | some other =>
      refine (placed_moduleName other).bind fun exported he => .pure ?_
      exact List.forall_mem_singleton.2 (placed_place (placed_pair hb he))
    | none =>
      refine .pure (List.forall_mem_singleton.2 (.construct fun part mem own => ?_))
      obtain rfl | rfl : part = binding ∨ part = .identifier _ := by simpa [Form.children] using mem
      · exact hb
      · exact absurd .exportedAs own

omit reads in
theorem placed_decoratedClass {decorators : List Node} {node : Node}
    (hd : ∀ decorator ∈ decorators, Placed decorator) (h : Placed node) :
    Placed (decoratedClass decorators node) := by
  obtain ⟨location, comments, form⟩ := node
  cases form with
  | classDeclaration =>
    obtain ⟨written, parts⟩ := (Placed.iff_of_whole (by nofun)).1 h
    refine (Placed.iff_of_whole (by nofun)).2 ⟨written, ?_⟩
    simp only [Form.children, List.forall_mem_append] at parts ⊢
    tauto
  | _ => exact h

/-- Whichever way an export is written, it has a place, and so have its specifiers. -/
theorem placed_exportStatement (tree : Tree) : (d.exportStatement read tree).Ensures Placed := by
  refine (placed_decorators reads tree).bind fun decorators hd => ?_
  cases tree.child? "declaration" with
  | some declaration =>
    refine (reads declaration).bind fun declaration h => ?_
    have whole := List.forall_mem_singleton.2 (placed_decoratedClass hd h)
    split
    · exact .pure (placed_place whole)
    · exact .pure (placed_place (by simpa [Form.children] using whole))
  | none =>
    dsimp only
    split
    · next value _ _ =>
      refine (reads value).bind fun _ h => .pure (placed_place (List.forall_mem_singleton.2 h))
    · split
      · exact placed_raw reads tree
      · refine (Except.Ensures.mapM placed_exportSpecifier _).bind fun _ specifiers => ?_
        refine (Except.Ensures.optionMapM placed_string _).bind fun _ source => ?_
        refine .pure (placed_place (List.forall_mem_append.2 ⟨?_, source⟩))
        exact List.forall_mem_flatten.2 specifiers

/-! ### Classes -/

omit d in
theorem placed_superClass (heritage : Tree) :
    (superClass read heritage).Ensures fun node => ∀ part ∈ node.toList, Placed part := by
  unfold superClass
  split
  · exact .pure (List.forall_mem_nil _)
  split
  · exact .optionMapM reads _
  · exact (reads _).map fun _ h => List.forall_mem_singleton.2 h

theorem placed_classDeclaration (tree : Tree) :
    (d.classDeclaration read tree).Ensures Placed := by
  refine (placed_decorators reads tree).bind fun decorators hd => ?_
  refine (Except.Ensures.mapM (placed_superClass reads) _).bind fun supers hs => ?_
  have super : ∀ part ∈ supers.getLast?.join.toList, Placed part := by
    cases last : supers.getLast? with
    | none => exact List.forall_mem_nil _
    | some super => exact hs super (List.mem_of_getLast? last)
  have name : ∀ part ∈ ((tree.child? "name").map d.identifier).toList, Placed part := by
    cases tree.child? "name" with
    | none => exact List.forall_mem_nil _
    | some name => exact List.forall_mem_singleton.2 (placed_identifier name)
  have body (members : List Node) (hm : ∀ member ∈ members, Placed member) :
      Placed (d.place tree (.classDeclaration ((tree.child? "name").map d.identifier)
        supers.getLast?.join decorators members)) :=
    placed_place <| List.forall_mem_append.2
      ⟨List.forall_mem_append.2 ⟨List.forall_mem_append.2 ⟨name, super⟩, hd⟩, hm⟩
  cases tree.child? "body" with
  | none => exact .pure (body [] (List.forall_mem_nil _))
  | some block =>
    refine (Except.Ensures.mapM (sound_classItem reads) _).bind fun items sound => .pure (body _ ?_)
    exact Item.placed_classMembers sound [] (List.forall_mem_nil _)

theorem placed_key (tree : Tree) : (d.key read tree).Ensures Placed := by
  unfold key
  split
  · exact placed_firstOperand reads tree
  · exact reads tree

theorem placed_method (tree : Tree) : (d.method read tree).Ensures Placed := by
  unfold method
  cases memberName? tree with
  | none => exact placed_raw reads tree
  | some name =>
    refine (placed_key reads name).bind fun key hk => ?_
    refine (placed_decorators reads tree).bind fun decorators hd => ?_
    refine (Except.Ensures.optionMapM (placed_block reads) _).bind fun body hb => ?_
    refine .pure (placed_place (List.forall_mem_cons.2 ⟨hk, List.forall_mem_append.2 ⟨hd, hb⟩⟩))

theorem placed_classField (tree : Tree) : (d.classField read tree).Ensures Placed := by
  unfold classField
  cases memberName? tree with
  | none => exact placed_raw reads tree
  | some name =>
    refine (placed_key reads name).bind fun key hk => ?_
    refine (Except.Ensures.optionMapM reads _).bind fun value hv => ?_
    refine (placed_decorators reads tree).bind fun decorators hd => ?_
    refine .pure (placed_place (List.forall_mem_cons.2 ⟨hk, List.forall_mem_append.2 ⟨hv, hd⟩⟩))

/-! ### Statements -/

theorem placed_returnStatement (tree : Tree) : (d.returnStatement read tree).Ensures Placed :=
  (Except.Ensures.optionMapM reads _).bind fun _ parts => .pure (placed_place parts)

theorem placed_expressionStatement (tree : Tree) :
    (d.expressionStatement read tree).Ensures Placed := by
  unfold expressionStatement
  cases tree.operands with
  | nil => exact placed_raw reads tree
  | cons expression _ =>
    exact (reads expression).bind fun _ h => .pure (placed_place (List.forall_mem_singleton.2 h))

theorem placed_declarator (tree : Tree) : (d.declarator read tree).Ensures Placed := by
  have value (id : Node) (h : Placed id) : (do
      return d.place tree (.declarator id (← (tree.child? "value").mapM read))).Ensures Placed :=
    (Except.Ensures.optionMapM reads _).bind fun _ parts =>
      .pure (placed_place (List.forall_mem_cons.2 ⟨h, parts⟩))
  unfold declarator
  cases tree.child? "name" with
  | none => exact (placed_raw reads tree).bind value
  | some name => exact (reads name).bind value

theorem placed_variableDeclaration (tree : Tree) :
    (d.variableDeclaration read tree).Ensures Placed :=
  (Except.Ensures.mapM (placed_declarator reads) _).bind fun _ parts => .pure (placed_place parts)

/-! ### Expressions -/

theorem placed_call (tree : Tree) : (d.call read tree).Ensures Placed := by
  unfold call
  split
  · next callee arguments _ _ =>
    split
    · refine (reads callee).bind fun _ hc => ?_
      refine (Except.Ensures.mapM reads _).bind fun _ ha => .pure (placed_place ?_)
      exact List.forall_mem_cons.2 ⟨hc, ha⟩
    · exact placed_raw reads tree
  · exact placed_raw reads tree

theorem placed_access (part : String) (computed : Bool) (tree : Tree) :
    (d.access read part computed tree).Ensures Placed := by
  unfold access
  split
  · next target name _ _ =>
    split
    · exact placed_raw reads tree
    · refine (reads target).bind fun _ ht => (reads name).bind fun _ hn => .pure (placed_place ?_)
      exact placed_pair ht hn
  · exact placed_raw reads tree

theorem placed_assignment (tree : Tree) : (d.assignment read tree).Ensures Placed := by
  unfold assignment
  split
  · next left right _ _ =>
    refine (reads left).bind fun _ hl => (reads right).bind fun _ hr => .pure (placed_place ?_)
    exact placed_pair hl hr
  · exact placed_raw reads tree

theorem placed_entry (tree : Tree) : (d.entry read tree).Ensures Placed := by
  unfold entry
  split
  · split
    · next name value _ _ =>
      refine (placed_key reads name).bind fun _ hk => (reads value).bind fun _ hv => ?_
      exact .pure (placed_place (placed_pair hk hv))
    · exact placed_raw reads tree
  · refine .pure (.construct fun part mem own => ?_)
    obtain rfl : part = .identifier _ := by simpa [Form.children] using mem
    exact absurd .shorthand own
  · exact placed_raw reads tree

theorem sound_entryItem (tree : Tree) : (d.entryItem read tree).Ensures Item.Sound := by
  unfold entryItem
  split
  · exact .pure trivial
  · exact (placed_entry reads tree).bind fun _ h => .pure h

theorem placed_object (tree : Tree) : (d.object read tree).Ensures Placed :=
  (Except.Ensures.mapM (sound_entryItem reads) _).bind fun _ sound =>
    .pure (placed_place (Item.placed_entries sound []))

omit reads in
theorem exists_quasi {start stop : Nat} {substitutions : List Tree} {piece : Node}
    (h : piece ∈ d.quasis start stop substitutions) :
    ∃ source tail, piece = .of (.quasi source tail) := by
  induction substitutions generalizing start with
  | nil => exact ⟨_, _, List.mem_singleton.1 h⟩
  | cons substitution rest ih =>
    obtain rfl | later := List.mem_cons.1 h
    · exact ⟨_, _, rfl⟩
    · exact ih later

theorem placed_template (tree : Tree) : (d.template read tree).Ensures Placed := by
  refine (Except.Ensures.mapM (placed_firstOperand reads) _).bind fun _ expressions => ?_
  refine .pure (.construct fun part mem own => ?_)
  obtain piece | expression := List.mem_append.1 mem
  · obtain ⟨source, tail, rfl⟩ := exists_quasi piece
    exact absurd .piece own
  · exact expressions part expression

/-! ### All constructs -/

/-- Whatever a construct is read as has a place if its parts have. -/
theorem placed_construct (tree : Tree) : (d.construct read tree).Ensures Placed := by
  have leaf {form : Form Node} (h : form.children = []) :
      (pure (d.place tree form) : Except EscapeError Node).Ensures Placed :=
    .pure (placed_place (h ▸ List.forall_mem_nil _))
  unfold construct
  split
  all_goals first
    | exact leaf rfl
    | exact placed_importStatement reads tree
    | exact placed_exportStatement reads tree
    | exact placed_classDeclaration reads tree
    | exact placed_method reads tree
    | exact placed_classField reads tree
    | exact placed_decorator reads tree
    | exact placed_block reads tree
    | exact placed_returnStatement reads tree
    | exact placed_expressionStatement reads tree
    | exact placed_variableDeclaration reads tree
    | exact placed_declarator reads tree
    | exact placed_call reads tree
    | exact placed_access reads _ _ tree
    | exact placed_assignment reads tree
    | exact placed_object reads tree
    | exact placed_string tree
    | exact placed_template reads tree
    | exact placed_raw reads tree

end

theorem placed_readWithin (d : Document) (levels : Nat) (tree : Tree) :
    (d.readWithin levels tree).Ensures Placed := by
  induction levels generalizing tree with
  | zero => exact .pure (placed_place (List.forall_mem_nil _))
  | succ levels ih => exact placed_construct ih tree

theorem placed_readProgram (d : Document) (tree : Tree) : (d.readProgram tree).Ensures Placed :=
  (placed_statements (fun tree => placed_readWithin d tree.height tree) tree).bind
    fun _ parts => .pure (placed_place parts)

end Document

/-- **What is read is placed**: in the module of a source text every construct has a place, but for
the bare parts. -/
theorem placed_of_readModule [Recovery] {source : List Char} {program : Node}
    (h : readModule source = .ok program) : Placed program := by
  unfold readModule at h
  split at h
  · cases h
  · exact Document.placed_readProgram _ _ _ (Except.mapError_eq_ok.1 h)

end ElementWrapper.Source
