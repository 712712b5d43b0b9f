import ElementWrapper.Proofs.Source.Rules

/-!
The constructs whose parts stand in an order. `Returns` says what a reader yields wherever it is
run, which is enough for the outline of a construct: which parts the rules put into it, and what
they put beside them. Together with the tokens of these parts it gives the construct its shape.
-/

namespace ElementWrapper.Source

variable {α β : Type} {P : α → Prop} {Q : β → Prop}

/-- Whatever a reader yields, wherever it is run, has a property. -/
def Returns (reader : Reader α) (P : α → Prop) : Prop :=
  ∀ cursor readings value after, (reader cursor readings).1 = some (value, after) → P value

theorem Yields.and {source : List Char} {reader : Reader α} {R : α → Prop}
    (h : Yields source reader P) (hr : Returns reader R) :
    Yields source reader fun value => P value ∧ R value := by
  intro cursor here readings known
  obtain ⟨known, yields⟩ := h cursor here readings known
  refine ⟨known, fun value after eq => ?_⟩
  obtain ⟨own, there⟩ := yields value after eq
  exact ⟨⟨own, hr cursor readings value after eq⟩, there⟩

namespace Returns

variable {reader : Reader α}

theorem imp (h : Returns reader P) {R : α → Prop} (imp : ∀ value, P value → R value) :
    Returns reader R :=
  fun cursor readings value after eq => imp _ (h cursor readings value after eq)

theorem anything : Returns reader fun _ => True := fun _ _ _ _ _ => trivial

theorem pure {value : α} (h : P value) : Returns (Pure.pure value) P := by
  intro cursor readings _ after eq
  obtain ⟨rfl, rfl⟩ := Prod.mk.inj (Option.some.inj eq)
  exact h

theorem failure : Returns (Alternative.failure : Reader α) P := fun _ _ _ _ => nofun

theorem bind {f : α → Reader β} (h : Returns reader P)
    (hf : ∀ value, P value → Returns (f value) Q) :
    Returns (reader >>= f) Q := by
  intro cursor readings value after eq
  rw [run_bind] at eq
  split at eq
  · next first there readings' own =>
    exact hf first (h cursor readings first there (by rw [own])) there readings' value after eq
  · cases eq

/-- Whatever is read first, what is read then has a property. -/
theorem next {f : α → Reader β} (hf : ∀ value, Returns (f value) Q) : Returns (reader >>= f) Q :=
  anything.bind fun value _ => hf value

theorem orElse {second : Reader α} (h : Returns reader P) (hs : Returns second P) :
    Returns (reader <|> second) P := by
  intro cursor readings value after eq
  rw [run_orElse] at eq
  split at eq
  · next own => exact h cursor readings value after (by rw [own, eq])
  · exact hs cursor _ value after eq

end Returns

/-! ## Lists of trees -/

/-- There is one tree, which has a property. -/
def Single (P : Tree → Prop) (trees : List Tree) : Prop := ∃ tree, trees = [tree] ∧ P tree

/-- A tree that is no operand and plays no part: a comment or a punctuation. -/
structure IsMark (tree : Tree) : Prop where
  other : tree.isOperand = false
  field : tree.field = none

theorem IsMark.isAmong {tree : Tree} (h : IsMark tree) {kinds : List String} :
    tree.IsAmong kinds := by
  intro operand
  rw [h.other] at operand
  cases operand

theorem IsMark.isBeside {tree : Tree} (h : IsMark tree) {kinds : List String} :
    tree.IsBeside kinds :=
  ⟨by rw [Tree.isSecond, h.field]; rfl, h.isAmong⟩

theorem Returns.each {rule : Rule} {P : Tree → Prop} (h : Returns rule (Single P)) :
    Returns rule fun trees => ∀ tree ∈ trees, P tree := by
  refine h.imp fun trees single => ?_
  obtain ⟨tree, rfl, own⟩ := single
  exact List.forall_mem_singleton.2 own

/-! ## Rules -/

section

variable {rule : Rule} {kind part s : String} {P : Tree → Prop}

theorem returns_token {named : Bool} {length : Nat} :
    Returns (token kind named length) fun tree =>
      tree.kind = kind ∧ tree.named = named ∧ tree.field = none :=
  .next fun _ => .next fun _ => .pure ⟨rfl, rfl, rfl⟩

theorem returns_comment {length : Nat} :
    Returns (token Tree.commentKind true length) IsMark :=
  returns_token.imp fun tree ⟨kind, _, field⟩ =>
    ⟨by rw [Tree.isOperand, Tree.isComment, kind]; simp, field⟩

theorem returns_commentsWithin {fuel : Nat} :
    Returns (commentsWithin fuel) fun trees => ∀ tree ∈ trees, IsMark tree := by
  induction fuel with
  | zero => exact .pure (List.forall_mem_nil _)
  | succ fuel ih =>
    refine .next fun _ => .next fun _ => ?_
    split
    · exact .bind returns_comment fun _ own => .bind ih fun _ rest => .pure
        (List.forall_mem_cons.2 ⟨own, rest⟩)
    · exact .pure (List.forall_mem_nil _)

theorem returns_comments : Returns comments fun trees => ∀ tree ∈ trees, IsMark tree :=
  .next fun _ => returns_commentsWithin

theorem returns_gapWithin {ends inExpression : Bool} {fuel : Nat} :
    Returns (Rule.gapWithin ends inExpression fuel) fun trees => ∀ tree ∈ trees, IsMark tree := by
  induction fuel with
  | zero => exact .pure (List.forall_mem_nil _)
  | succ fuel ih =>
    refine .next fun _ => .next fun _ => .next fun _ => .next fun _ => ?_
    split
    · exact .bind returns_comment fun _ own => .bind ih fun _ rest => .pure
        (List.forall_mem_cons.2 ⟨own, rest⟩)
    · exact .pure (List.forall_mem_nil _)

theorem returns_mark : Returns (Rule.mark s) (Single IsMark) :=
  .next fun _ => .next fun _ => .bind returns_token fun tree ⟨_, named, field⟩ =>
    .pure ⟨tree, rfl, by rw [Tree.isOperand, named, Bool.false_and], field⟩

theorem returns_one {reader : Reader Tree} : Returns (Rule.one reader) (Single fun _ => True) :=
  .next fun tree => .pure ⟨tree, rfl, trivial⟩

theorem returns_node : Returns (Rule.node kind rule) (Single fun tree =>
    tree.kind = kind ∧ tree.field = none) := by
  refine .bind (.next fun trees => ?_) fun tree own => .pure ⟨tree, rfl, own⟩
  split
  · exact .failure
  · exact .pure ⟨rfl, rfl⟩

/-- A rule yields one tree that is no comment. -/
def Lone (rule : Rule) : Prop := Returns rule (Single fun tree => ¬ tree.isComment)

namespace Lone

theorem of_kind {P : Tree → Prop} [other : Evident (kind ≠ Tree.commentKind)]
    (h : Returns rule (Single fun tree => tree.kind = kind ∧ P tree)) : Lone rule := by
  refine h.imp fun trees single => ?_
  obtain ⟨tree, rfl, rfl, -⟩ := single
  exact ⟨tree, rfl, fun comment => other.holds (of_decide_eq_true comment)⟩

theorem node [Evident (kind ≠ Tree.commentKind)] : Lone (Rule.node kind rule) :=
  .of_kind returns_node

theorem token {named : Bool} {length : Nat} [Evident (kind ≠ Tree.commentKind)] :
    Lone (do return [← Source.token kind named length]) :=
  of_kind (.bind returns_token fun tree own => .pure ⟨tree, rfl, own⟩)

theorem name [Evident (kind ≠ Tree.commentKind)] : Lone (Rule.name kind) :=
  .next fun _ => .next fun _ => token

theorem namedWord [Evident (kind ≠ Tree.commentKind)] : Lone (Rule.namedWord kind s) :=
  .next fun _ => .next fun _ => token

theorem privateName : Lone Rule.privateName := by
  refine .next fun _ => ?_
  split
  · exact .next fun _ => token
  · exact .failure

theorem builtInType : Lone Rule.builtInType := .next fun _ => .next fun _ => token

theorem string : Lone Rule.string := by
  refine .next fun _ => ?_
  split
  · exact token
  · exact .failure

theorem number : Lone Rule.number := .next fun _ => .next fun _ => token

theorem either {other : Rule} (h : Lone rule) (ho : Lone other) : Lone (Rule.either rule other) :=
  h.orElse ho

theorem firstOf {rules : List Rule} (h : Each Lone rules) : Lone (Rule.firstOf rules) := by
  induction rules with
  | nil => exact .failure
  | cons rule rules ih => exact h.1.orElse (ih h.2)

end Lone

theorem returns_opt (h : Returns rule fun trees => ∀ tree ∈ trees, P tree) :
    Returns (Rule.opt rule) fun trees => ∀ tree ∈ trees, P tree := h.orElse (.pure nofun)

theorem returns_either {other : Rule} (h : Returns rule fun trees => ∀ tree ∈ trees, P tree)
    (ho : Returns other fun trees => ∀ tree ∈ trees, P tree) :
    Returns (Rule.either rule other) fun trees => ∀ tree ∈ trees, P tree := h.orElse ho

theorem returns_firstOf {rules : List Rule}
    (h : Each (fun rule => Returns rule fun trees => ∀ tree ∈ trees, P tree) rules) :
    Returns (Rule.firstOf rules) fun trees => ∀ tree ∈ trees, P tree := by
  induction rules with
  | nil => exact .failure
  | cons rule rules ih => exact h.1.orElse (ih h.2)

theorem returns_append {second : List Tree → Rule}
    (h : Returns rule fun trees => ∀ tree ∈ trees, P tree)
    (hs : ∀ trees, Returns (second trees) fun trees => ∀ tree ∈ trees, P tree) :
    Returns (do let trees ← rule; return trees ++ (← second trees))
      fun trees => ∀ tree ∈ trees, P tree :=
  .bind h fun first hf => .bind (hs first) fun _ hs => .pure (List.forall_mem_append.2 ⟨hf, hs⟩)

theorem returns_unlessWord {keywords : List String} {P : List Tree → Prop} (h : Returns rule P) :
    Returns (Rule.unlessWord keywords rule) P :=
  .next fun _ => .next fun _ => h

theorem returns_followedBy {test : List Char → Bool} {P : List Tree → Prop} (h : Returns rule P) :
    Returns (Rule.followedBy test rule) P :=
  .bind h fun _ own => .next fun _ => .next fun _ => .pure own

/-- A construct that may stand beside the parts. -/
theorem returns_node_beside {kinds : List String} [beside : Evident (kind ∈ kinds)] :
    Returns (Rule.node kind rule) fun trees => ∀ tree ∈ trees, tree.IsBeside kinds :=
  returns_node.each.imp fun _ own tree mem => by
    obtain ⟨kind, field⟩ := own tree mem
    exact ⟨by rw [Tree.isSecond, field]; rfl, fun _ => kind ▸ beside.holds⟩

/-- A construct that may be a part. -/
theorem returns_node_among {kinds : List String} [among : Evident (kind ∈ kinds)] :
    Returns (Rule.node kind rule) fun trees => ∀ tree ∈ trees, tree.IsAmong kinds :=
  returns_node.each.imp fun _ own tree mem _ => (own tree mem).1 ▸ among.holds

/-- It may be a part of any name. -/
theorem returns_field_among {kinds : List String}
    (h : Returns rule fun trees => ∀ tree ∈ trees, tree.IsAmong kinds) :
    Returns (Rule.field part rule) fun trees => ∀ tree ∈ trees, tree.IsAmong kinds := by
  refine .bind h fun trees own => .pure (List.forall_mem_map.2 fun tree mem => ?_)
  split
  · exact own tree mem
  · have allowed := own tree mem
    cases tree
    exact allowed

theorem returns_mark_among {kinds : List String} :
    Returns (Rule.mark s) fun trees => ∀ tree ∈ trees, tree.IsAmong kinds :=
  returns_mark.each.imp fun _ marks tree mem => (marks tree mem).isAmong

/-- What ends a statement is no construct. -/
theorem returns_semicolonWithin {inExpression beforeBody : Bool} {fuel : Nat} :
    Returns (Rule.semicolonWithin inExpression beforeBody fuel)
      fun trees => ∀ tree ∈ trees, IsMark tree := by
  induction fuel with
  | zero => exact .failure
  | succ fuel ih =>
    refine .next fun _ => ?_
    split
    · exact .pure nofun
    · refine .next fun _ => .next fun _ => ?_
      split
      · exact .bind returns_comment fun _ own => .bind ih fun _ rest => .pure
          (List.forall_mem_cons.2 ⟨own, rest⟩)
      · exact returns_mark.each

/-- It stands beside them as well if it plays another part. -/
theorem returns_field_beside {kinds : List String} [other : Evident (part ∉ secondNames)]
    (h : Returns rule fun trees => ∀ tree ∈ trees, tree.IsBeside kinds) :
    Returns (Rule.field part rule) fun trees => ∀ tree ∈ trees, tree.IsBeside kinds := by
  refine .bind h fun trees own => .pure (List.forall_mem_map.2 fun tree mem => ?_)
  split
  · exact own tree mem
  · obtain ⟨-, allowed⟩ := own tree mem
    obtain ⟨kind, named, missing, field, start, stop, children⟩ := tree
    refine ⟨Bool.eq_false_iff.2 fun second => other.holds ?_, allowed⟩
    exact List.contains_iff_mem.1 second

theorem returns_mark_beside {kinds : List String} :
    Returns (Rule.mark s) fun trees => ∀ tree ∈ trees, tree.IsBeside kinds :=
  returns_mark.each.imp fun _ marks tree mem => (marks tree mem).isBeside

theorem returns_mark_other :
    Returns (Rule.mark s) fun trees => ∀ tree ∈ trees, tree.isOperand = false :=
  returns_mark.each.imp fun _ marks tree mem => (marks tree mem).other

theorem returns_equals {kinds : List String} :
    Returns Rule.equals fun trees => ∀ tree ∈ trees, tree.IsBeside kinds :=
  returns_followedBy returns_mark_beside

/-- What plays a part, unless it is a comment. -/
def Plays (name : String) (tree : Tree) : Prop := tree.field = some name ∨ tree.isComment

theorem returns_field (h : Returns rule (Single P)) :
    Returns (Rule.field part rule) (Single fun tree => Plays part tree) := by
  refine .bind h fun trees single => ?_
  obtain ⟨tree, rfl, -⟩ := single
  refine .pure ⟨_, rfl, ?_⟩
  dsimp only
  split
  · next comment => exact .inr comment
  · cases tree
    exact .inl rfl

theorem returns_part (h : Lone rule) :
    Returns (Rule.field part rule) (Single fun tree => Plays part tree) := returns_field h

theorem returns_leading (h : Lone rule) :
    Returns (Rule.field part rule) (Single fun tree => tree.field = some part) := by
  refine .bind h fun trees single => ?_
  obtain ⟨tree, rfl, construct⟩ := single
  refine .pure ⟨_, rfl, ?_⟩
  dsimp only
  rw [if_neg construct]
  cases tree
  rfl

end

/-! ## Rules one after the other -/

section

variable {plain special : Tree → Prop} {rule : Rule} {rules : List Rule}

/-- At most one of the rules yields the exception. -/
inductive Spared (plain special : Tree → Prop) : List Rule → Prop
  | nil : Spared plain special []
  | plain {rule : Rule} {rules : List Rule}
    (own : Returns rule fun trees => ∀ tree ∈ trees, plain tree)
    (rest : Spared plain special rules) : Spared plain special (rule :: rules)
  | special {rule : Rule} {rules : List Rule} (own : Returns rule (Single special))
    (rest : Each (fun rule => Returns rule fun trees => ∀ tree ∈ trees, plain tree) rules) :
    Spared plain special (rule :: rules)

theorem Spared.append {first : List Rule}
    (h : Each (fun rule => Returns rule fun trees => ∀ tree ∈ trees, plain tree) first)
    (rest : Spared plain special rules) : Spared plain special (first ++ rules) := by
  induction first with
  | nil => exact rest
  | cons rule first ih => exact .plain h.1 (ih h.2)

theorem returns_andThen_cons {P Q R : List Tree → Prop} (h : Returns rule P)
    (hr : Returns (Rule.andThen rules) Q)
    (join : ∀ between own later, (∀ tree ∈ between, IsMark tree) → P own → Q later →
      R (between ++ own ++ later)) : Returns (Rule.andThen (rule :: rules)) R := by
  refine .next fun _ => .bind returns_comments fun between marks => .bind h fun own ho => ?_
  split
  · next empty =>
    rw [List.isEmpty_iff.1 empty] at ho
    exact .next fun _ => hr.imp fun later hl => join [] [] later nofun ho hl
  · exact .bind hr fun later hl => .pure (join between own later marks ho hl)

/-- A sequence yields what its first rule yields with all else behind it, or what the other rules
yield by themselves if the first one yields nothing. -/
theorem returns_seq_cons {P Q R S : List Tree → Prop} (h : Returns rule P)
    (hr : Returns (Rule.andThen rules) Q) (hs : Returns (Rule.seq rules) S)
    (skip : P [] → ∀ later, S later → R later)
    (join : ∀ own later, own ≠ [] → P own → Q later → R (own ++ later)) :
    Returns (Rule.seq (rule :: rules)) R := by
  refine .bind h fun own ho => ?_
  split
  · next empty =>
    rw [List.isEmpty_iff.1 empty] at ho
    exact hs.imp (skip ho)
  · next filled =>
    exact .bind hr fun later hl => .pure
      (join own later (fun empty => filled (List.isEmpty_iff.2 empty)) ho hl)

variable (marks : ∀ tree, IsMark tree → plain tree)

include marks

theorem returns_andThen
    (h : Each (fun rule => Returns rule fun trees => ∀ tree ∈ trees, plain tree) rules) :
    Returns (Rule.andThen rules) fun trees => ∀ tree ∈ trees, plain tree := by
  induction rules with
  | nil => exact .pure nofun
  | cons rule rules ih =>
    refine returns_andThen_cons h.1 (ih h.2) fun between own later hb ho hl => ?_
    exact List.forall_mem_append.2 ⟨List.forall_mem_append.2
      ⟨fun tree mem => marks tree (hb tree mem), ho⟩, hl⟩

theorem returns_seq
    (h : Each (fun rule => Returns rule fun trees => ∀ tree ∈ trees, plain tree) rules) :
    Returns (Rule.seq rules) fun trees => ∀ tree ∈ trees, plain tree := by
  induction rules with
  | nil => exact .pure nofun
  | cons rule rules ih =>
    exact returns_seq_cons h.1 (returns_andThen marks h.2) (ih h.2) (fun _ _ => id)
      fun _ _ _ ho hl => List.forall_mem_append.2 ⟨ho, hl⟩

theorem returns_manyWithin (h : Returns rule fun trees => ∀ tree ∈ trees, plain tree)
    {fuel : Nat} : Returns (Rule.manyWithin rule fuel) fun trees => ∀ tree ∈ trees, plain tree := by
  induction fuel with
  | zero => exact .pure nofun
  | succ fuel ih =>
    refine .next fun _ => .bind returns_comments fun between hb => .bind (returns_opt h)
      fun own ho => ?_
    split
    · exact .next fun _ => .pure nofun
    · exact .bind ih fun later hl => .pure (List.forall_mem_append.2
        ⟨List.forall_mem_append.2 ⟨fun tree mem => marks tree (hb tree mem), ho⟩, hl⟩)

theorem returns_many (h : Returns rule fun trees => ∀ tree ∈ trees, plain tree) :
    Returns (Rule.many rule) fun trees => ∀ tree ∈ trees, plain tree := by
  refine .next fun _ => .bind (returns_opt h) fun own ho => ?_
  split
  · exact .pure nofun
  · exact .bind (returns_manyWithin marks h) fun later hl =>
      .pure (List.forall_mem_append.2 ⟨ho, hl⟩)

theorem Spared.andThen (h : Spared plain special rules) :
    Returns (Rule.andThen rules) (AllButOne plain special) := by
  induction h with
  | nil => exact .pure .nil
  | plain own _ ih =>
    refine returns_andThen_cons own ih fun between own later hb ho hl => ?_
    exact .append_left (List.forall_mem_append.2 ⟨fun tree mem => marks tree (hb tree mem), ho⟩) hl
  | special own rest =>
    refine returns_andThen_cons own (returns_andThen marks rest)
      fun between own later hb ho hl => ?_
    obtain ⟨tree, rfl, ho⟩ := ho
    exact .append_right (.append_left (fun tree mem => marks tree (hb tree mem)) (.singleton ho)) hl

/-- If at most one of the rules yields the exception, then so does at most one of the trees that a
sequence of them yields. -/
theorem Spared.seq (h : Spared plain special rules) :
    Returns (Rule.seq rules) (AllButOne plain special) := by
  induction h with
  | nil => exact .pure .nil
  | plain own rest ih =>
    exact returns_seq_cons own (rest.andThen marks) ih (fun _ _ => id)
      fun _ _ _ ho hl => .append_left ho hl
  | special own rest =>
    refine returns_seq_cons own (returns_andThen marks rest) .anything ?_ ?_
    · rintro ⟨_, none, _⟩
      cases none
    · rintro _ later - ⟨tree, rfl, ho⟩ hl
      exact .append_right (.singleton ho) hl

end

/-! ## Joined constructs -/

/-- What stands after the first part of a joined construct. -/
abbrev Tail (joint : Joint) : List Tree → Prop :=
  AllButOne (Tree.IsBeside joint.beside) (Plays joint.second)

section

variable {source : List Char} {kind first second : String} {beside : List String} {head : Tree}
  {rule : Rule} {rules : List Rule}

/-- The parts of a joined construct: the first one, and what stands after it. -/
inductive Joins (source : List Char) (kind : String) (joint : Joint) : List Tree → Prop
  | intro {head : Tree} {rest : List Tree} (own : Tokenized (.ofChars source) head)
    (field : head.field = some joint.first)
    (parts : ∀ part ∈ rest,
      part.IsSign (.ofChars source) ∧ kind ∈ signedKinds ∨ Tokenized (.ofChars source) part)
    (tail : Tail joint rest) : Joins source kind joint (head :: rest)

/-- A construct with the parts of a joint has the outline of its kind. -/
theorem Joins.outline {joint : Joint} {children : List Tree} (table : joint? kind = some joint)
    (h : Joins source kind joint children) : Outline (.ofChars source) kind children := by
  obtain ⟨own, field, parts, tail⟩ := h
  refine .of_joint table (List.forall_mem_cons.2 ⟨fun eq => absurd eq own.fits.shape.kind,
    fun part mem eq => ?_⟩) ?_
  · obtain sign | other := parts part mem
    · exact sign
    · exact absurd eq other.fits.shape.kind
  · rintro _ _ ⟨⟩
    refine ⟨field, tail.weaken fun part mem plays => plays.symm.imp_left fun comment => ?_⟩
    have other : part.kind = Tree.commentKind := of_decide_eq_true comment
    obtain ⟨sign, -⟩ | own := parts part mem
    · exact absurd (sign.kind.symm.trans other) (by decide)
    · exact ⟨own.fits.shape.comment comment, fun operand => by
        simp [Tree.isOperand, comment] at operand⟩

theorem Joins.tokenized {joint : Joint} {children : List Tree}
    (h : Joins source kind joint children) :
    ∀ part ∈ children, part.kind ≠ signKind → Tokenized (.ofChars source) part := by
  obtain ⟨own, -, parts, -⟩ := h
  refine List.forall_mem_cons.2 ⟨fun _ => own, fun part mem other => ?_⟩
  exact (parts part mem).resolve_left fun ⟨sign, _⟩ => other sign.kind

/-- A joined construct. -/
theorem SoundTree.joined (table : joint? kind = some ⟨first, second, beside⟩)
    (h : Yields source rule (Joins source kind ⟨first, second, beside⟩)) :
    SoundTree source (Rule.tree kind rule) := by
  have plain : ∀ kind ∈ nameKinds ++ wordlessKinds ++ leafKinds, joint? kind = none := by decide
  have other {kinds : List String} (sub : kinds ⊆ nameKinds ++ wordlessKinds ++ leafKinds) :
      kind ∉ kinds := fun mem => by
    rw [plain kind (sub mem)] at table
    cases table
  refine (Yields.tree h).imp fun tree ⟨hk, named, field, joins⟩ => ?_
  subst hk
  exact .of_outline (other (List.subset_append_left ..)) (other (List.subset_append_right ..)) named
    field (joins.outline table) joins.tokenized

namespace Sound

/-- A part, and more after it with the sign between them. -/
theorem joined_signed (table : joint? kind = some ⟨first, second, beside⟩)
    (hh : Tokenized (.ofChars source) head) [name : Evident (first ∉ secondNames)]
    (h : Yields source (Rule.andThen rules) fun trees => ∀ tree ∈ trees,
      tree.IsSign (.ofChars source) ∧ kind ∈ signedKinds ∨ Tokenized (.ofChars source) tree)
    (tail : Returns (Rule.andThen rules) (Tail ⟨first, second, beside⟩)) :
    Sound source (Rule.node kind (Rule.after (head.withField first) rules)) := by
  refine .one (.joined table
    (.bind (h.and tail) fun rest ⟨parts, tail⟩ => .require fun _ => .pure ?_))
  refine .intro hh.inField ?_ parts tail
  cases head
  rfl

/-- A part, and more after it. -/
theorem joined (table : joint? kind = some ⟨first, second, beside⟩)
    (hh : Tokenized (.ofChars source) head) [Evident (first ∉ secondNames)]
    (h : Each (Sound source) rules)
    (tail : Spared (Tree.IsBeside beside) (Plays second) rules) :
    Sound source (Rule.node kind (Rule.after (head.withField first) rules)) :=
  joined_signed table hh ((andThen h).imp fun _ own tree mem => .inr (own tree mem))
    (tail.andThen fun _ mark => mark.isBeside)

end Sound

/-- Parts one after the other. -/
theorem SoundTree.joined_seq (table : joint? kind = some ⟨first, second, beside⟩)
    (hr : Sound source rule) (lone : Lone rule)
    [Evident (first ≠ "property")] (h : Each (Sound source) rules)
    (tail : Spared (Tree.IsBeside beside) (Plays second) rules) :
    SoundTree source (Rule.tree kind (Rule.seq (Rule.field first rule :: rules))) := by
  refine .joined table
    (.bind ((Sound.field hr).and (returns_leading lone)) fun own ⟨ho, single⟩ => ?_)
  obtain ⟨head, rfl, field⟩ := single
  refine .bind ((Sound.andThen h).and (tail.andThen fun _ mark => mark.isBeside))
    fun rest ⟨hr, tail⟩ => .pure ?_
  exact .intro (forest_cons.1 ho).1 field (fun part mem => .inr (hr part mem)) tail

/-- A part, and more after it once the gap is passed. -/
theorem SoundTree.joined_continued (table : joint? kind = some ⟨first, second, beside⟩)
    (hh : Tokenized (.ofChars source) head) [Evident (first ∉ secondNames)]
    {ends inExpression : Bool} (h : Each (Sound source) rules)
    (tail : Spared (Tree.IsBeside beside) (Plays second) rules) :
    SoundTree source (Rule.tree kind (do
      return head.withField first :: (← Rule.continued ends inExpression (Rule.seq rules)))) := by
  have rest : Returns (Rule.continued ends inExpression (Rule.seq rules))
      (Tail ⟨first, second, beside⟩) :=
    .bind (.next fun _ => returns_gapWithin) fun _ marks =>
      .bind (tail.seq fun _ mark => mark.isBeside) fun _ own => .next fun _ => .pure
        (.append_left (fun tree mem => (marks tree mem).isBeside) own)
  refine .joined table
    (.bind ((Sound.continued (.seq h)).and rest) fun rest ⟨parts, tail⟩ => .pure ?_)
  refine .intro hh.inField ?_ (fun part mem => .inr (parts part mem)) tail
  cases head
  rfl

/-! ## The sign -/

/-- The sign is read as the two characters that it is. -/
theorem yields_sign : Yields source (Rule.mark signKind) fun trees =>
    ∀ tree ∈ trees, tree.IsSign (.ofChars source) := by
  refine fun cursor => .upcoming <| .require fun starts => ?_
  have text : cursor.rest.take signKind.length = signKind.toList :=
    (List.prefix_iff_eq_take.1 (List.isPrefixOf_iff_prefix.1 starts)).symm
  have sign : YieldsAt source cursor (token signKind false signKind.length)
      (Tree.IsSign (.ofChars source)) := by
    intro here readings known
    refine ⟨known, fun tree after eq => ?_⟩
    obtain ⟨rfl, rfl⟩ := Prod.mk.inj (Option.some.inj eq)
    exact ⟨⟨rfl, congrArg Text.ofChars ((here.slice _).trans text), rfl, rfl, rfl⟩,
      here.advance _⟩
  exact sign.bind fun _ own => .pure (List.forall_mem_singleton.2 own)

/-- A sign as a construct of its own. -/
theorem SoundTree.signed
    (h : Yields source rule fun trees => ∀ tree ∈ trees, tree.IsSign (.ofChars source)) :
    SoundTree source (Rule.tree "optional_chain" rule) := by
  refine (Yields.tree h).imp fun tree ⟨hk, named, field, signs⟩ => ?_
  have outline : Outline (.ofChars source) tree.kind tree.children := by
    rw [hk]
    refine ⟨fun part mem _ => ⟨signs part mem, by decide⟩, nofun, ?_, nofun⟩
    exact fun mem => absurd mem (by decide)
  exact .of_outline (by rw [hk]; decide) (by rw [hk]; decide) named field outline
    fun part mem other => absurd (signs part mem).kind other

/-! ## Constructs with one operand -/

/-- A construct around one operand. -/
theorem Sound.single [single : Evident (kind ∈ singleKinds)] (h : Each (Sound source) rules)
    (operands : Spared (·.isOperand = false) (fun _ => True) rules) :
    Sound source (Rule.node kind (Rule.seq rules)) := by
  have other : kind ∉ nameKinds ++ wordlessKinds ++ leafKinds := by
    have plain : ∀ kind ∈ singleKinds, kind ∉ nameKinds ++ wordlessKinds ++ leafKinds := by decide
    exact plain kind single.holds
  rw [List.mem_append, not_or] at other
  have none : joint? kind = none := by
    have none : ∀ kind ∈ singleKinds, joint? kind = none := by decide
    exact none kind single.holds
  refine .one ((Yields.tree ((seq h).and (operands.seq fun _ mark => mark.other))).imp
    fun tree ⟨hk, named, field, own, one⟩ => ?_)
  subst hk
  refine .of_outline other.1 other.2 named field ⟨fun part mem eq => ?_, fun joint eq => ?_,
    fun _ => one, fun kinds eq => ?_⟩ fun part mem _ => own part mem
  · exact absurd eq (own part mem).fits.shape.kind
  · rw [none] at eq
    cases eq
  · have few : ∀ kind ∈ singleKinds, partKinds? kind = Option.none := by decide
    rw [few _ single.holds] at eq
    cases eq

/-! ## Constructs with parts of a few kinds -/

/-- A construct with parts of a few kinds. -/
theorem SoundTree.parted {kinds : List String} (table : partKinds? kind = some kinds)
    (h : Sound source rule)
    (parts : Returns rule fun trees => ∀ tree ∈ trees, tree.IsAmong kinds) :
    SoundTree source (Rule.tree kind rule) := by
  have plain : ∀ kind ∈ nameKinds ++ wordlessKinds ++ leafKinds, partKinds? kind = none := by decide
  have other {kinds : List String} (sub : kinds ⊆ nameKinds ++ wordlessKinds ++ leafKinds) :
      kind ∉ kinds := fun mem => by
    rw [plain kind (sub mem)] at table
    cases table
  have joint : joint? kind = none := by
    cases joint : joint? kind with
    | none => rfl
    | some joint =>
      rw [Outline.partKinds?_of_joint joint] at table
      cases table
  have single : kind ∉ singleKinds := fun mem => by
    have none : ∀ kind ∈ singleKinds, partKinds? kind = none := by decide
    rw [none kind mem] at table
    cases table
  refine (Yields.tree (h.and parts)).imp fun tree ⟨hk, named, field, own, parts⟩ => ?_
  subst hk
  refine .of_outline (other (List.subset_append_left ..)) (other (List.subset_append_right ..))
    named field ⟨fun part mem eq => absurd eq (own part mem).fits.shape.kind, fun _ eq => ?_,
      fun mem => absurd mem single, fun kinds eq => ?_⟩ fun part mem _ => own part mem
  · rw [joint] at eq
    cases eq
  · obtain rfl := Option.some.inj (table.symm.trans eq)
    exact parts

end

end ElementWrapper.Source
