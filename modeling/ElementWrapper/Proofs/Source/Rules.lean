import ElementWrapper.Proofs.Source.Readers

/-!
The trees that come of putting rules together. `Sound` says that all trees a rule yields have
tokens, and there is one lemma for each way to make a rule of others, so that the proof for a rule
of the grammar is put together as the rule is.
-/

namespace ElementWrapper.Source

open Script (IsName)

variable {source : List Char} {P : Tree → Prop}

/-- What a proposition comes to when it is decided. -/
class Decided (p : Prop) [Decidable p] (value : outParam Bool) : Prop where
  eq : decide p = value

instance (p : Prop) [Decidable p] : Decided p (decide p) := ⟨rfl⟩

/-- A proposition that is found to hold by deciding it, like what is said of a name that is written
out. -/
abbrev Evident (p : Prop) [Decidable p] : Prop := Decided p true

theorem Evident.holds {p : Prop} [Decidable p] (h : Evident p) : p := of_decide_eq_true h.eq

theorem Evident.of {p : Prop} [Decidable p] (h : p) : Evident p := ⟨decide_eq_true h⟩

/-- Every item of a list has a property. -/
@[reducible] def Each {α : Type} (p : α → Prop) : List α → Prop
  | [] => True
  | first :: rest => p first ∧ Each p rest

theorem Each.forall {α : Type} {p : α → Prop} {items : List α} (h : Each p items) :
    ∀ item ∈ items, p item := by
  induction items with
  | nil => exact nofun
  | cons item items ih => exact List.forall_mem_cons.2 ⟨h.1, ih h.2⟩

theorem Each.append {α : Type} {p : α → Prop} {first second : List α} (hf : Each p first)
    (hs : Each p second) : Each p (first ++ second) := by
  induction first with
  | nil => exact hs
  | cons item items ih => exact ⟨hf.1, ih hf.2⟩

theorem Tree.kind_withField (tree : Tree) (name : String) :
    (tree.withField name).kind = tree.kind := by
  cases tree
  rfl

theorem Yields.tree {rule : Rule} {kind : String} {P : List Tree → Prop}
    (h : Yields source rule P) :
    Yields source (Rule.tree kind rule) fun tree =>
      tree.kind = kind ∧ tree.named ∧ tree.field = none ∧ P tree.children := by
  refine .bind h fun trees ht => ?_
  split
  · exact .failure
  · exact .pure ⟨rfl, rfl, rfl, ht⟩

theorem Yields.one {reader : Reader Tree} {P : Tree → Prop} (h : Yields source reader P) :
    Yields source (Rule.one reader) fun trees => ∀ tree ∈ trees, P tree :=
  .bind h fun _ ht => .pure (List.forall_mem_singleton.2 ht)

theorem SoundTree.tree {rule : Rule} {kind : String} (h : Sound source rule)
    [plain : Evident (kind ∉ tokenKinds)] : SoundTree source (Rule.tree kind rule) :=
  (Yields.tree h).imp fun _ ⟨hk, hn, hf, hc⟩ => .of_not_mem (hk ▸ plain.holds) hn hf hc

/-- A token whose text does not matter. -/
theorem SoundTree.token {kind : String} {named : Bool} {length : Nat}
    [plain : Evident (kind ∉ tokenKinds)] :
    SoundTree source (Source.token kind named length) :=
  fun _ => (YieldsAt.token (.of_not_mem plain.holds)).imp fun _ => And.left

namespace Sound

variable {rule first second : Rule} {rules : List Rule} {kind s : String}

/-! ### Tokens -/

theorem token {named : Bool} {length : Nat} [Evident (kind ∉ tokenKinds)] :
    Sound source (do return [← Source.token kind named length]) :=
  Yields.one SoundTree.token

theorem mark [Evident (s ∉ tokenKinds)] : Sound source (Rule.mark s) :=
  .upcoming fun _ => .require fun _ => token

theorem word [Evident (s ∉ tokenKinds)] : Sound source (Rule.word s) :=
  .upcoming fun _ => .require fun _ => token

/-! ### Rules in combination -/

theorem either (hf : Sound source first) (hs : Sound source second) :
    Sound source (Rule.either first second) := hf.orElse hs

theorem opt (h : Sound source rule) : Sound source (Rule.opt rule) := h.orElse (.pure forest_nil)

theorem firstOf (h : Each (Sound source) rules) : Sound source (Rule.firstOf rules) := by
  induction rules with
  | nil => exact .failure
  | cons rule rules ih => exact .orElse h.1 (ih h.2)

theorem andThen (h : Each (Sound source) rules) : Sound source (Rule.andThen rules) := by
  induction rules with
  | nil => exact .pure forest_nil
  | cons rule rules ih =>
    refine .get fun before here => .bind sound_comments fun between hb => .bind h.1 fun own ho => ?_
    split
    · exact .set here (ih h.2)
    · exact .bind (ih h.2) fun later hl =>
        .pure (forest_append.2 ⟨forest_append.2 ⟨hb, ho⟩, hl⟩)

theorem seq (h : Each (Sound source) rules) : Sound source (Rule.seq rules) := by
  induction rules with
  | nil => exact .pure forest_nil
  | cons rule rules ih =>
    refine .bind h.1 fun own ho => ?_
    split
    · exact ih h.2
    · exact .bind (andThen h.2) fun later hl => .pure (forest_append.2 ⟨ho, hl⟩)

theorem manyWithin (h : Sound source rule) {fuel : Nat} :
    Sound source (Rule.manyWithin rule fuel) := by
  induction fuel with
  | zero => exact .pure forest_nil
  | succ fuel ih =>
    refine .get fun before here => .bind sound_comments fun between hb =>
      .bind h.opt fun own ho => ?_
    split
    · exact .set here (.pure forest_nil)
    · exact .bind ih fun later hl => .pure (forest_append.2 ⟨forest_append.2 ⟨hb, ho⟩, hl⟩)

theorem many (h : Sound source rule) : Sound source (Rule.many rule) := by
  refine .upcoming fun _ => .bind h.opt fun own ho => ?_
  split
  · exact .pure forest_nil
  · exact .bind h.manyWithin fun later hl => .pure (forest_append.2 ⟨ho, hl⟩)

theorem sepBy1 (hs : Sound source first) (hi : Sound source second) :
    Sound source (Rule.sepBy1 first second) :=
  .seq ⟨hi, .many (.seq ⟨hs, hi, trivial⟩), trivial⟩

theorem commaList (h : Sound source rule) : Sound source (Rule.commaList rule) :=
  .seq ⟨h.opt, .many (.seq ⟨.mark, h.opt, trivial⟩), trivial⟩

theorem one {reader : Reader Tree} (h : SoundTree source reader) : Sound source (Rule.one reader) :=
  Yields.one h

theorem node (h : Sound source rule) [Evident (kind ∉ tokenKinds)] :
    Sound source (Rule.node kind rule) := .one (.tree h)

theorem field {name : String} (h : Sound source rule) [other : Evident (name ≠ "property")] :
    Sound source (Rule.field name rule) := by
  refine .bind h fun trees ht => .pure (List.forall_mem_map.2 fun tree mem => ?_)
  split
  · exact ht tree mem
  · next construct =>
    exact (ht tree mem).withField (fun same => absurd same other.holds) fun own =>
      absurd own construct

theorem followedBy {test : List Char → Bool} (h : Sound source rule) :
    Sound source (Rule.followedBy test rule) :=
  .bind h fun _ ht => .upcoming fun _ => .require fun _ => .pure ht

/-! ### The end of a statement -/

/-- The end of a statement is a semicolon, or nothing. Comments before it are read as they come. -/
theorem semicolonWithin {inExpression beforeBody : Bool} {fuel : Nat} :
    Sound source (Rule.semicolonWithin inExpression beforeBody fuel) := by
  induction fuel with
  | zero => exact .failure
  | succ fuel ih =>
    refine .upcoming fun _ => ?_
    split
    · exact .pure forest_nil
    · refine .skipSpace fun cursor => .upcoming ?_
      split
      · next comment => exact .comment comment ih
      · exact (mark : Sound source (Rule.mark ";")) cursor

/-- Behind a closing brace there are but comments up to the place where a statement may end. -/
theorem closingWithin {inExpression : Bool} {fuel : Nat} :
    Sound source (Rule.closingWithin inExpression fuel) := by
  induction fuel with
  | zero => exact .failure
  | succ fuel ih =>
    refine .upcoming fun _ => ?_
    split
    · exact .pure forest_nil
    · refine .skipSpace fun cursor => .upcoming ?_
      split
      · next comment => exact .comment comment ih
      · exact .failure

theorem semicolon {inExpression : Bool} : Sound source (Rule.semicolon inExpression) :=
  .upcoming fun _ => semicolonWithin

theorem bodilessEnd : Sound source Rule.bodilessEnd := .upcoming fun _ => semicolonWithin

theorem append (hf : Sound source first) {second : List Tree → Rule}
    (hs : ∀ trees, Sound source (second trees)) :
    Sound source (do let trees ← first; return trees ++ (← second trees)) :=
  .bind hf fun trees ht => .bind (hs trees) fun _ hm => .pure (forest_append.2 ⟨ht, hm⟩)

theorem closing {inExpression : Bool} : Sound source (Rule.closing inExpression) :=
  .bind mark fun _ hb => .upcoming fun _ => .bind closingWithin.opt fun _ hm =>
    .pure (forest_append.2 ⟨hb, hm⟩)

theorem ended {inExpression : Bool} (h : Sound source rule) :
    Sound source (Rule.ended inExpression rule) := h.append fun _ => semicolon

end Sound

theorem yields_lookPast : Yields source Rule.lookPast fun _ => True :=
  .get fun _ here => .bind sound_comments fun _ _ => .upcoming fun _ => .set here (.pure trivial)

theorem Tokenized.inField {d : Document} {tree : Tree} {name : String} (h : Tokenized d tree)
    [other : Evident (name ∉ secondNames)] : Tokenized d (tree.withField name) := by
  have property : "property" ∈ secondNames := by decide
  exact h.withField (fun same => absurd (same ▸ property) other.holds) fun _ => other.holds

namespace Yields

theorem only {rule : Rule} (h : Yields source rule fun trees => ∀ tree ∈ trees, P tree) :
    Yields source (Rule.only rule) P := by
  refine .bind h fun trees ht => ?_
  split
  · exact .pure (List.forall_mem_singleton.1 ht)
  · exact .failure

/-- What holds of a tree and of whatever extends it holds in the end. -/
theorem extendWithin {extend : Tree → Rule}
    (h : ∀ tree, P tree → Yields source (extend tree) fun trees => ∀ tree ∈ trees, P tree)
    (fuel : Nat) {tree : Tree} (ht : P tree) :
    Yields source (Rule.extendWithin extend fuel tree) P := by
  induction fuel generalizing tree with
  | zero => exact .pure ht
  | succ fuel ih =>
    refine .bind ((h tree ht).orElse (.pure nofun)) fun trees hl => ?_
    split
    · exact ih (List.forall_mem_singleton.1 hl)
    · exact .pure ht

theorem extended {first : Reader Tree} {extend : Tree → Rule} (hf : Yields source first P)
    (h : ∀ tree, P tree → Yields source (extend tree) fun trees => ∀ tree ∈ trees, P tree) :
    Yields source (Rule.extended first extend) P :=
  .upcoming fun _ => .bind hf fun _ ht => extendWithin h _ ht

end Yields

theorem SoundTree.only {rule : Rule} (h : Sound source rule) : SoundTree source (Rule.only rule) :=
  Yields.only h

theorem SoundTree.extended {first : Reader Tree} {extend : Tree → Rule}
    (hf : SoundTree source first)
    (h : ∀ tree, Tokenized (.ofChars source) tree → Sound source (extend tree)) :
    SoundTree source (Rule.extended first extend) := Yields.extended hf h

namespace Sound

variable {rule first second : Rule} {rules : List Rule} {kind s : String}

theorem gapWithin {ends inExpression : Bool} {fuel : Nat} :
    Sound source (Rule.gapWithin ends inExpression fuel) := by
  induction fuel with
  | zero => exact .pure forest_nil
  | succ fuel ih =>
    refine .upcoming fun _ => .require fun _ => .skipSpace fun cursor => .upcoming ?_
    split
    · next comment => exact .comment comment ih
    · exact .pure forest_nil

theorem gap {ends inExpression : Bool} : Sound source (Rule.gap ends inExpression) :=
  .upcoming fun _ => gapWithin

theorem continued {ends inExpression : Bool} (h : Sound source rule) :
    Sound source (Rule.continued ends inExpression rule) :=
  .bind gap fun _ hb => .bind h fun _ ho => .require fun _ => .pure (forest_append.2 ⟨hb, ho⟩)

theorem after {head : Tree} (hh : Tokenized (.ofChars source) head)
    (h : Each (Sound source) rules) : Sound source (Rule.after head rules) :=
  .bind (andThen h) fun _ ht => .require fun _ => .pure (forest_cons.2 ⟨hh, ht⟩)

theorem markBut {longer : List Char} [Evident (s ∉ tokenKinds)] :
    Sound source (Rule.markBut s longer) := .followedBy .mark

theorem equals : Sound source Rule.equals := .markBut

theorem modified (hm : Sound source first) (hr : Sound source second) :
    Sound source (Rule.modified first second) :=
  .either (.bind hm fun _ hw => .bind (andThen ⟨hr, trivial⟩) fun _ ht => .require fun _ =>
    .pure (forest_append.2 ⟨hw, ht⟩)) hr

theorem modifiedBy (hm : Each (Sound source) rules) (hr : Sound source rule) :
    Sound source (Rule.modifiedBy rules rule) := by
  induction rules with
  | nil => exact hr
  | cons modifier rules ih => exact modified hm.1 (ih hm.2)

theorem softWord [Evident (s ∉ tokenKinds)] : Sound source (Rule.softWord s) :=
  .followedBy .word

theorem unlessWord {keywords : List String} (h : Sound source rule) :
    Sound source (Rule.unlessWord keywords rule) := .upcoming fun _ => .require fun _ => h

/-- A word that is read as a construct of its own is a name, whatever kind it is given. -/
theorem namedWord [name : Evident (kind ∉ wordlessKinds)]
    [some : Evident (s ≠ "")] : Sound source (Rule.namedWord kind s) := by
  refine fun cursor => .upcoming <| .require fun eq => ?_
  have word : wordAt cursor.rest = s.toList := of_decide_eq_true eq
  have text : cursor.rest.take s.length = wordAt cursor.rest := by
    have length : s.length = (wordAt cursor.rest).length := by rw [word, String.length_toList]
    rw [length]
    exact (List.prefix_iff_eq_take.1 (List.take_prefix _ _)).symm
  have length : 0 < wordLength cursor.rest := by
    refine Nat.pos_of_ne_zero fun zero => some.holds ?_
    rw [wordAt, zero, List.take_zero] at word
    exact String.toList_eq_nil_iff.1 word.symm
  have isName : IsName (Text.ofChars (cursor.rest.take s.length)) := text ▸ isName_word length
  exact .single (.of_isName isName name.holds)

theorem accessibility : Sound source Rule.accessibility :=
  .upcoming fun _ => .require fun _ => token

theorem override : Sound source Rule.override := .namedWord

theorem string : Sound source Rule.string := by
  refine fun cursor => .upcoming ?_
  split
  · next h => exact .single (.of_string h)
  · exact .failure

theorem number : Sound source Rule.number :=
  fun _ => .upcoming <| .require fun some => .single (.of_number (of_decide_eq_true some))

/-- The marks, the pattern and the flags of a regular expression are tokens whose text does not
matter. -/
theorem regex : Sound source Rule.regex := by
  refine .upcoming fun _ => ?_
  split
  · split
    · refine .require fun _ => .bind SoundTree.token fun opening ho => .bind SoundTree.token
        fun pattern hp => .bind SoundTree.token fun closing hc => .upcoming fun _ => ?_
      have whole {flags : List Tree} (hf : Forest source flags) :
          Sound source (Rule.node "regex" (pure ([opening, pattern, closing] ++ flags))) :=
        .node (.pure (forest_append.2 ⟨Each.forall ⟨ho, hp, hc, trivial⟩, hf⟩))
      dsimp only
      split
      · exact .bind (.pure forest_nil) fun _ => whole
      · exact .bind (one .token) fun _ => whole
    · exact .failure
  · exact .failure

end Sound

/-! ## Names -/

/-- The trees are names, and there is one at least. -/
def AreNames (source : List Char) (trees : List Tree) : Prop :=
  Forest source trees ∧ trees ≠ [] ∧ ∀ tree ∈ trees, tree.kind ∈ nameKinds

theorem areNames_singleton {tree : Tree} (h : Tokenized (.ofChars source) tree)
    (name : tree.kind ∈ nameKinds) : AreNames source [tree] :=
  ⟨forest_cons.2 ⟨h, forest_nil⟩, List.cons_ne_nil _ _, List.forall_mem_singleton.2 name⟩

/-- A rule yields names. -/
def Named (source : List Char) (rule : Rule) : Prop := Yields source rule (AreNames source)

namespace Named

variable {rule first second : Rule}

theorem name {kind : String} [name : Evident (kind ∈ nameKinds)]
    [other : Evident (kind ∉ wordlessKinds)] :
    Named source (Rule.name kind) := fun _ => .upcoming <| .require fun some =>
  (YieldsAt.token (.of_isName (isName_word (of_decide_eq_true some)) other.holds)).bind fun _ h =>
    .pure (areNames_singleton h.1 (h.2 ▸ name.holds))

theorem privateName : Named source Rule.privateName := by
  refine fun cursor => .upcoming ?_
  split
  · next rest eq =>
    refine .require fun some => (YieldsAt.token ?_).bind fun _ h =>
      .pure (areNames_singleton h.1 (h.2 ▸ by decide))
    rw [eq]
    exact .of_isName (isName_private (of_decide_eq_true some)) (by decide)
  · exact .failure

theorem either (hf : Named source first) (hs : Named source second) :
    Named source (Rule.either first second) := hf.orElse hs

/-- Names may play the part of a property. -/
theorem field {part : String} (h : Named source rule) : Named source (Rule.field part rule) := by
  refine .bind h fun trees ⟨own, filled, names⟩ => .pure ⟨?_, by simpa using filled, ?_⟩
  · refine List.forall_mem_map.2 fun tree mem => ?_
    split
    · exact own tree mem
    · next construct =>
      exact (own tree mem).withField (fun _ => names tree mem) fun own => absurd own construct
  · refine List.forall_mem_map.2 fun tree mem => ?_
    split
    · exact names tree mem
    · exact tree.kind_withField part ▸ names tree mem

theorem sound (h : Named source rule) : Sound source rule := h.imp fun _ => And.left

end Named

namespace Sound

variable {rule first second : Rule} {rules : List Rule} {kind s : String}

theorem name [other : Evident (kind ∉ wordlessKinds)] :
    Sound source (Rule.name kind) := fun _ => .upcoming <| .require fun some =>
  .single (.of_isName (isName_word (of_decide_eq_true some)) other.holds)

theorem property {part : String} (h : Named source rule) : Sound source (Rule.field part rule) :=
  Named.sound (.field h)

theorem identifier : Sound source Rule.identifier := .name

theorem nameBut {keywords : List String} [Evident (kind ∉ wordlessKinds)] :
    Sound source (Rule.nameBut kind keywords) := unlessWord .name

theorem privateName : Sound source Rule.privateName := Named.privateName.sound

theorem cons {tree : Tree} (ht : Tokenized (.ofChars source) tree) (h : Sound source rule) :
    Sound source (do return tree :: (← rule)) :=
  .bind h fun _ hr => .pure (forest_cons.2 ⟨ht, hr⟩)

theorem ifAfterClosing {marks : List String} (h : Sound source rule) :
    Sound source (Rule.ifAfterClosing marks rule) := .upcoming fun _ => .require fun _ => h

end Sound

end ElementWrapper.Source
