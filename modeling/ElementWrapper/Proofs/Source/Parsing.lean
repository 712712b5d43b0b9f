import ElementWrapper.Proofs.Source.Grammar.Statements

/-!
The tree that a source text is parsed into.
-/

namespace ElementWrapper.Source

variable {source : List Char} {goal : Goal} {reader : Reader Tree}

theorem mem_of_lookup {α β : Type} [DecidableEq α] {key : α} {value : β} {entries : List (α × β)}
    (h : entries.lookup key = some value) : (key, value) ∈ entries := by
  obtain ⟨before, after, rfl, -⟩ := List.lookup_eq_some_iff.1 h
  simp

/-- What is read is remembered. -/
theorem SoundTree.recalled (h : SoundTree source reader) :
    SoundTree source (recalled goal reader) := by
  intro cursor here readings known
  unfold Source.recalled
  dsimp only
  split
  · next result found =>
    refine ⟨known, fun tree after eq => ?_⟩
    obtain rfl : result = _ := eq
    exact known _ _ _ _ (mem_of_lookup found)
  · obtain ⟨known, yields⟩ := h cursor here readings known
    generalize reader cursor readings = outcome at known yields ⊢
    obtain ⟨result, readings⟩ := outcome
    refine ⟨fun byte goal' tree after mem => ?_, yields⟩
    rw [Std.TreeMap.getD_insert] at mem
    split at mem
    · obtain same | mem := List.mem_cons.1 mem
      · obtain ⟨rfl, eq⟩ := Prod.mk.inj same
        exact yields tree after eq.symm
      · exact known _ _ _ _ mem
    · exact known _ _ _ _ mem

/-- **Every goal is read as a tree with tokens.** -/
theorem soundTree_read (depth : Nat) (goal : Goal) : SoundTree source (Rule.read depth goal) := by
  induction depth generalizing goal with
  | zero => exact .failure
  | succ depth ih =>
    refine .recalled ?_
    cases goal with
    | statement => exact Sound.statementRule ih
    | block => exact Sound.blockRule ih
    | expression => exact Sound.expressionRule ih
    | leftHand => exact Sound.leftHand ih
    | pattern => exact .only (Sound.pattern ih)
    | type => exact Sound.typeRule ih
    | primaryType => exact Sound.primaryType ih
    | classBody => exact Sound.classBodyRule ih

theorem soundTree_program (depth : Nat) : SoundTree source (Rule.program depth) := by
  refine .bind sound_comments fun _ hb => .bind (Sound.opt Sound.shellLine) fun _ hf =>
    .bind sound_comments fun _ hm => .bind (Sound.statements (soundTree_read depth)) fun _ hs =>
    .bind sound_comments fun _ ha => .upcoming fun _ => .require fun _ => .get fun _ _ => ?_
  have whole := forest_append.2 ⟨forest_append.2 ⟨forest_append.2 ⟨forest_append.2 ⟨hb, hf⟩, hm⟩,
    hs⟩, ha⟩
  have plain : "program" ∉ tokenKinds := by decide
  dsimp only
  split
  · exact .pure (.of_not_mem plain rfl rfl (List.forall_mem_nil _))
  · next eq => exact .pure (.of_not_mem plain rfl rfl (eq ▸ whole))

/-- The tree is the whole one or lies below it. -/
inductive Tree.Within (tree : Tree) : Tree → Prop
  | whole : Within tree tree
  | part {child parent : Tree} (mem : child ∈ parent.children) (within : Within tree child) :
    Within tree parent

theorem Tree.Within.eq_of_children {tree root : Tree} (h : tree.Within root)
    (none : root.children = []) : tree = root := by
  cases h with
  | whole => rfl
  | part mem =>
    rw [none] at mem
    cases mem

theorem Tokenized.within {d : Document} {tree root : Tree} (h : Tokenized d root)
    (within : tree.Within root) (other : tree.kind ≠ signKind) : Tokenized d tree := by
  induction within with
  | whole => exact h
  | @part child _ mem below ih =>
    refine ih (h.of_mem mem fun kind => other ?_)
    rw [below.eq_of_children (h.sign mem kind).children, kind]

/-- **The tree of a source text has tokens.** -/
theorem tokenized_of_parse {root : Tree} (h : parse source = some root) :
    Tokenized (.ofChars source) root := by
  have known : Remembers source ∅ := by
    intro byte goal tree after mem
    simp at mem
  obtain ⟨⟨tree, after⟩, eq, rfl⟩ := Option.map_eq_some_iff.1 h
  exact ((soundTree_program _ _ (Cursor.in_start source) ∅ known).2 tree after eq).1

/-- The names, literals and comments in whatever a part of a source text is read as are tokens. -/
theorem spelled_of_parse {root tree : Tree} (h : parse source = some root)
    (within : tree.Within root) (levels : Nat) :
    ((Document.ofChars source).readWithin levels tree).Ensures Script.Spelled := by
  by_cases sign : tree.kind = signKind
  · exact Document.spelled_sign sign levels
  · exact (Document.readsTokens_readWithin _ levels).spelled
      ((tokenized_of_parse h).within within sign)

end ElementWrapper.Source
