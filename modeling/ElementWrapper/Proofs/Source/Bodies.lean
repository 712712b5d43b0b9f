import ElementWrapper.Proofs.Source.Parsing

/-!
What the members of a body gain. The items of a body fall into groups that end with a member each,
and a rest without members (`Division`). The two lists of what waits for the next member are filled
while the items of a group are gone through, and emptied by its member: so a member gains the
comments and the decorators of its own group (`classMembers_eq`, `statements_eq`), and nothing is
lost but the comments of the rest. In a class of a source text every member can take decorators,
because of the kinds of members that the grammar has (`takes_classItem`).
-/

namespace ElementWrapper.Source

open Literal (EscapeError)

/-! ## Groups -/

namespace Item

/-- The node of a member of a class. -/
def member? : Item → Option Node
  | member node => some node
  | _ => none

/-- The node of a statement. Only comments stand between statements. -/
def statement? : Item → Option Node
  | comment _ => none
  | decorator node | member node => some node

def comment? : Item → Option Comment
  | comment value => some value
  | _ => none

def decorator? : Item → Option Node
  | decorator node => some node
  | _ => none

/-- The comments among items. -/
def comments (items : List Item) : List Comment := items.filterMap comment?

/-- The decorators among items. -/
def decorators (items : List Item) : List Node := items.filterMap decorator?

end Item

/-- A member of a body, with the items between it and the member before it. -/
structure Group where
  before : List Item
  node : Node

namespace Group

/-- The comments before the member. -/
def comments (group : Group) : List Comment := Item.comments group.before

/-- The decorators before the member. -/
def decorators (group : Group) : List Node := Item.decorators group.before

end Group

/-- Items are divided into groups and a rest without members. -/
inductive Division (member? : Item → Option Node) : List Item → List Group → List Item → Prop
  | rest {items : List Item} (none : ∀ item ∈ items, member? item = none) :
    Division member? items [] items
  | group {before : List Item} {item : Item} {node : Node} {items : List Item}
    {groups : List Group} {rest : List Item} (between : ∀ item ∈ before, member? item = none)
    (own : member? item = some node) (later : Division member? items groups rest) :
    Division member? (before ++ item :: items) (⟨before, node⟩ :: groups) rest

namespace Division

variable {member? : Item → Option Node} {items : List Item} {groups : List Group}
  {rest : List Item}

/-- Every list of items is divided in this way: each member closes the group that began behind the
member before it. -/
theorem exists_of (member? : Item → Option Node) (items : List Item) :
    ∃ groups rest, Division member? items groups rest := by
  induction items with
  | nil => exact ⟨[], [], .rest nofun⟩
  | cons item items ih =>
    obtain ⟨groups, rest, divided⟩ := ih
    cases own : member? item with
    | some node =>
      have first := Division.group (List.forall_mem_nil _) own divided
      exact ⟨⟨[], node⟩ :: groups, rest, first⟩
    | none =>
      cases divided with
      | rest none => exact ⟨[], _, .rest (List.forall_mem_cons.2 ⟨own, none⟩)⟩
      | @group before _ node _ groups _ between end? later =>
        exact ⟨⟨item :: before, node⟩ :: groups, rest,
          .group (List.forall_mem_cons.2 ⟨own, between⟩) end? later⟩

/-- The groups come in the order of their members. -/
theorem map_node (h : Division member? items groups rest) :
    groups.map Group.node = items.filterMap member? := by
  have apart {items : List Item} (none : ∀ item ∈ items, member? item = none) :
      items.filterMap member? = [] := List.filterMap_eq_nil_iff.2 none
  induction h with
  | rest none => exact (apart none).symm
  | group between own _ ih =>
    rw [List.filterMap_append, apart between, List.filterMap_cons_some own, List.map_cons, ih,
      List.nil_append]

/-- Up to the last member every item belongs to a group. -/
theorem exists_front {α : Type} (h : Division member? items groups rest) (f : Item → Option α)
    (apart : ∀ item node, member? item = some node → f item = none) :
    ∃ front, items = front ++ rest ∧ (∀ last ∈ front.getLast?, (member? last).isSome) ∧
      (groups.flatMap fun group => group.before.filterMap f) = front.filterMap f := by
  induction h with
  | rest => exact ⟨[], rfl, nofun, rfl⟩
  | @group before item node _ groups _ _ own _ ih =>
    obtain ⟨front, rfl, last, same⟩ := ih
    refine ⟨before ++ item :: front, by simp, fun other mem => ?_, ?_⟩
    · rw [List.getLast?_append, List.getLast?_cons, Option.some_or, Option.mem_some_iff] at mem
      subst mem
      cases latest : front.getLast? with
      | none => simp [own]
      | some other => exact last other latest
    · rw [List.flatMap_cons, List.filterMap_append,
        List.filterMap_cons_none (apart item node own), same]

end Division

/-! ## Members of a class -/

/-- The decorators of a member that can take some: a method, a field, or a construct that is kept
with its text, which has them ahead of its operands. -/
def heads? : Form Node → Option (List Node)
  | .classMethod _ _ _ _ decorators _ | .classField _ _ _ _ decorators => some decorators
  | .raw _ _ operands => some operands
  | _ => none

/-- Decorators can be put on the node. -/
def Takes (node : Node) : Prop := (heads? node.form).isSome

/-- What a member is apart from its decorators. -/
def beheaded : Form Node → Form Node
  | .classMethod key kind static computed _ body => .classMethod key kind static computed [] body
  | .classField key value static computed _ => .classField key value static computed []
  | .raw kind text _ => .raw kind text []
  | form => form

/-- A member has become one with more comments and more decorators ahead of its own. -/
structure Gains (comments : List Comment) (decorators : List Node) (node gained : Node) : Prop where
  location : gained.location = node.location
  comments : gained.comments = comments ++ node.comments
  decorators : heads? gained.form = (heads? node.form).map (decorators ++ ·)
  rest : beheaded gained.form = beheaded node.form

/-- What a group becomes: its member with the comments and the decorators before it. If the member
can take no decorators, they stay where they are. -/
inductive Group.Yields (group : Group) : List Node → Prop
  | taken {gained : Node} (takes : Takes group.node)
    (gains : Gains group.comments group.decorators group.node gained) : Yields group [gained]
  | loose {gained : Node} (refuses : heads? group.node.form = none)
    (gains : Gains group.comments [] group.node gained) :
    Yields group (group.decorators ++ [gained])

namespace Item

/-- What a group becomes. -/
def gathered (group : Group) : List Node :=
  let (loose, node) := decorated group.decorators group.node
  loose ++ [commented group.comments node]

theorem yields_gathered (group : Group) : group.Yields (gathered group) := by
  obtain ⟨before, location, own, form⟩ := group
  cases form with
  | classMethod | classField | raw => exact .taken rfl ⟨rfl, rfl, rfl, rfl⟩
  | _ => exact .loose rfl ⟨rfl, rfl, rfl, rfl⟩

/-- Items between members wait for the next one. -/
theorem classMembers_append {between : List Item} (none : ∀ item ∈ between, member? item = none)
    (waiting : List Comment) (heads : List Node) (items : List Item) :
    classMembers waiting heads (between ++ items) =
      classMembers (waiting ++ comments between) (heads ++ decorators between) items := by
  induction between generalizing waiting heads with
  | nil => simp [comments, decorators]
  | cons item between ih =>
    obtain ⟨own, others⟩ := List.forall_mem_cons.1 none
    cases item with
    | comment value =>
      rw [List.cons_append, classMembers, ih others, List.append_assoc]
      rfl
    | decorator node =>
      rw [List.cons_append, classMembers, ih others, List.append_assoc heads]
      rfl
    | member node => cases own

/-- The members of a class come group by group, and the decorators behind the last of them stay at
the end. -/
theorem classMembers_eq {items rest : List Item} {groups : List Group}
    (h : Division member? items groups rest) :
    classMembers [] [] items = groups.flatMap gathered ++ decorators rest := by
  induction h with
  | @rest items none =>
    have alone := classMembers_append none [] [] []
    rw [List.append_nil] at alone
    exact alone
  | @group before item node items groups rest between own _ ih =>
    cases item with
    | comment | decorator => cases own
    | member other =>
      obtain rfl := Option.some.inj own
      rw [classMembers_append between, classMembers, ih, List.flatMap_cons, gathered]
      simp [Group.comments, Group.decorators]

end Item

/-! ## Statements -/

/-- The class that is exported by a statement, if it has no comments of its own. -/
def exportedClass? : Form Node → Option Node
  | .exportNamed (some declaration) _ _ _ | .exportDefault declaration =>
    match declaration with
    | .mk _ [] (.classDeclaration ..) => some declaration
    | _ => none
  | _ => none

/-- A class that is exported by a statement, and has no comments of its own, has those of the
statement as well. Nothing else is changed. -/
inductive Shares (comments : List Comment) : Form Node → Form Node → Prop
  | same {form : Form Node} (none : exportedClass? form = none) : Shares comments form form
  | named {place id superClass decorators body specifiers source typeOnly} :
    Shares comments
      (.exportNamed (some (.mk place [] (.classDeclaration id superClass decorators body)))
        specifiers source typeOnly)
      (.exportNamed (some (.mk place comments (.classDeclaration id superClass decorators body)))
        specifiers source typeOnly)
  | default {place id superClass decorators body} :
    Shares comments
      (.exportDefault (.mk place [] (.classDeclaration id superClass decorators body)))
      (.exportDefault (.mk place comments (.classDeclaration id superClass decorators body)))

/-- A statement has become one with more comments ahead of its own. -/
structure GainsComments (comments : List Comment) (node gained : Node) : Prop where
  location : gained.location = node.location
  comments : gained.comments = comments ++ node.comments
  rest : Shares gained.comments node.form gained.form

namespace Item

/-- Comments go ahead of the own ones of a statement, and from there to an exported class without
any. -/
theorem gainsComments (more : List Comment) (node : Node) :
    GainsComments more node (shareComments (commented more node)) := by
  obtain ⟨location, own, form⟩ := node
  cases form with
  | exportNamed declaration specifiers source typeOnly =>
    cases declaration with
    | none => exact ⟨rfl, rfl, .same rfl⟩
    | some declaration =>
      obtain ⟨place, comments, declared⟩ := declaration
      cases comments with
      | cons => exact ⟨rfl, rfl, .same rfl⟩
      | nil =>
        cases declared with
        | classDeclaration => exact ⟨rfl, rfl, .named⟩
        | _ => exact ⟨rfl, rfl, .same rfl⟩
  | exportDefault declaration =>
    obtain ⟨place, comments, declared⟩ := declaration
    cases comments with
    | cons => exact ⟨rfl, rfl, .same rfl⟩
    | nil =>
      cases declared with
      | classDeclaration => exact ⟨rfl, rfl, .default⟩
      | _ => exact ⟨rfl, rfl, .same rfl⟩
  | _ => exact ⟨rfl, rfl, .same rfl⟩

/-- Comments wait for the next statement. -/
theorem statements_append {between : List Item} (none : ∀ item ∈ between, statement? item = none)
    (waiting : List Comment) (items : List Item) :
    statements waiting (between ++ items) = statements (waiting ++ comments between) items := by
  induction between generalizing waiting with
  | nil => simp [comments]
  | cons item between ih =>
    obtain ⟨own, others⟩ := List.forall_mem_cons.1 none
    cases item with
    | comment value =>
      rw [List.cons_append, statements, ih others, List.append_assoc]
      rfl
    | decorator | member => cases own

/-- The statements come group by group, each with the comments of its group. Comments behind the
last one are dropped. -/
theorem statements_eq {items rest : List Item} {groups : List Group}
    (h : Division statement? items groups rest) :
    statements [] items =
      groups.map fun group => shareComments (commented group.comments group.node) := by
  induction h with
  | @rest items none =>
    have alone := statements_append none [] []
    rw [List.append_nil] at alone
    exact alone
  | @group before item node items groups rest between own _ ih =>
    rw [statements_append between, List.map_cons, ← ih]
    cases item with
    | comment => cases own
    | decorator other | member other =>
      obtain rfl := Option.some.inj own
      rfl

end Item

/-! ## Classes of a source text -/

namespace Document

section

variable {d : Document} {read : Tree → Except EscapeError Node} {tree : Tree}

theorem takes_raw : (d.raw read tree).Ensures Takes := .bind_of_forall fun _ => .pure rfl

theorem takes_method : (d.method read tree).Ensures Takes := by
  unfold method
  split
  · exact takes_raw
  · exact .bind_of_forall fun _ => .bind_of_forall fun _ => .bind_of_forall fun _ => .pure rfl

theorem takes_classField : (d.classField read tree).Ensures Takes := by
  unfold classField
  split
  · exact takes_raw
  · exact .bind_of_forall fun _ => .bind_of_forall fun _ => .bind_of_forall fun _ => .pure rfl

/-- What is read from a member of a class takes decorators, whichever of the kinds it is of. -/
theorem takes_construct (kind : tree.kind ∈ memberKinds) (other : tree.kind ≠ "decorator") :
    (d.construct read tree).Ensures Takes := by
  simp only [memberKinds, List.mem_cons, List.not_mem_nil, or_false] at kind
  obtain decorator | method | block | signature | index | bodiless | field := kind
  · exact absurd decorator other
  · simp only [construct, method]
    exact takes_method
  · simp only [construct, block]
    exact takes_raw
  · simp only [construct, signature]
    exact takes_raw
  · simp only [construct, index]
    exact takes_raw
  · simp only [construct, bodiless]
    exact takes_raw
  · simp only [construct, field]
    exact takes_classField

end

/-- Every member of a class of a source text can take decorators. -/
theorem takes_classItem {source : List Char} {root body child : Tree}
    (parsed : parse source = some root) (within : body.Within root)
    (kind : body.kind = "class_body") (mem : child ∈ body.namedChildren) (levels : Nat) :
    let d := Document.ofChars source
    (d.classItem (d.readWithin levels) child).Ensures fun item =>
      ∀ node, item.member? = some node → Takes node := by
  intro d
  have tokenized := (tokenized_of_parse parsed).within within (by rw [kind]; decide)
  obtain ⟨mem, named⟩ := List.mem_filter.1 mem
  unfold classItem
  split
  · exact .pure nofun
  · next noComment =>
    split
    · exact .bind_of_forall fun _ => .pure nofun
    · next noDecorator =>
      have own := tokenized.fits.shape.outline.parts memberKinds (by rw [kind]; rfl) child mem
        (by simp [Tree.isOperand, named, noComment])
      have takes : (d.readWithin levels child).Ensures Takes := by
        cases levels with
        | zero => exact .pure rfl
        | succ levels => exact takes_construct own noDecorator
      refine .bind takes fun node takes => .pure fun other eq => ?_
      obtain rfl := Option.some.inj eq
      exact takes

end Document

/-! ## The account of a body -/

/-- Items are divided into groups with a member each, and a rest. The items up to the last member
are the front, and all comments in it belong to groups. -/
structure Accounted (member? : Item → Option Node) (items : List Item) (groups : List Group)
    (front rest : List Item) : Prop where
  split : items = front ++ rest
  last : ∀ item ∈ front.getLast?, (member? item).isSome
  divided : Division member? items groups rest
  order : groups.map Group.node = items.filterMap member?
  comments : groups.flatMap Group.comments = Item.comments front

theorem exists_accounted (member? : Item → Option Node) (items : List Item)
    (apart : ∀ item node, member? item = some node → item.comment? = none) :
    ∃ groups front rest, Accounted member? items groups front rest := by
  obtain ⟨groups, rest, divided⟩ := Division.exists_of member? items
  obtain ⟨front, split, last, comments⟩ := divided.exists_front Item.comment? apart
  exact ⟨groups, front, rest, split, last, divided, divided.map_node, comments⟩

/-- **Comments and decorators are neither lost nor moved across members.** Every statement gains the
comments between the statement before it and itself, and every member of a class gains the comments
and the decorators between the member before it and itself, ahead of its own. What is gained, taken
in order, is all comments up to the last member, and all decorators but those after it, which stay
at the end of the class. A member that can take no decorators has them before it; in a class of a
source text there is none. -/
theorem bodies_account :
    (∀ items, ∃ groups front rest, Accounted Item.statement? items groups front rest ∧
      List.Forall₂ (fun group statement => GainsComments group.comments group.node statement) groups
        (Item.statements [] items)) ∧
    (∀ items, ∃ groups front rest parts, Accounted Item.member? items groups front rest ∧
      groups.flatMap Group.decorators ++ Item.decorators rest = Item.decorators items ∧
      List.Forall₂ Group.Yields groups parts ∧
      Item.classMembers [] [] items = parts.flatten ++ Item.decorators rest) ∧
    ∀ (source : List Char) (root body : Tree), parse source = some root → body.Within root →
      body.kind = "class_body" → ∀ levels items,
        let d := Document.ofChars source
        body.namedChildren.mapM (d.classItem (d.readWithin levels)) = .ok items →
          ∀ node, Item.member node ∈ items → Takes node := by
  refine ⟨fun items => ?_, fun items => ?_, ?_⟩
  · obtain ⟨groups, front, rest, accounted⟩ := exists_accounted Item.statement? items
      fun item node => by cases item <;> simp [Item.statement?, Item.comment?]
    refine ⟨groups, front, rest, accounted, ?_⟩
    rw [Item.statements_eq accounted.divided, List.forall₂_map_right_iff, List.forall₂_same]
    exact fun group _ => Item.gainsComments group.comments group.node
  · obtain ⟨groups, front, rest, accounted⟩ := exists_accounted Item.member? items
      fun item node => by cases item <;> simp [Item.member?, Item.comment?]
    refine ⟨groups, front, rest, groups.map Item.gathered, accounted, ?_, ?_, ?_⟩
    · obtain ⟨front', split, -, decorators⟩ := accounted.divided.exists_front Item.decorator?
        fun item node => by cases item <;> simp [Item.member?, Item.decorator?]
      rw [split, Item.decorators, Item.decorators, List.filterMap_append, ← decorators]
      rfl
    · rw [List.forall₂_map_right_iff, List.forall₂_same]
      exact fun group _ => Item.yields_gathered group
    · rw [Item.classMembers_eq accounted.divided, List.flatMap_def]
  · intro source root body parsed within kind levels items d read node mem
    have each := Except.Ensures.mapM_of_mem
      fun child mem => Document.takes_classItem parsed within kind mem levels
    exact each items read (.member node) mem node rfl

end ElementWrapper.Source
