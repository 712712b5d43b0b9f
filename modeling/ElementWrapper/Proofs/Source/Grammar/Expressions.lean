import ElementWrapper.Proofs.Source.Grammar.Types

/-!
The trees that the rules of expressions and of classes yield.
-/

namespace ElementWrapper.Source.Sound

variable {source : List Char} {rule : Rule} {kind : String} {context : Context} {target : Tree}
  {run : Goal → Reader Tree} (h : ∀ goal, SoundTree source (run goal))

include h

/-! ## Templates -/

omit h in
theorem returns_expressions :
    Returns (Rule.expressions run context) (Single fun _ => True) := by
  refine .next fun first => .next fun tail => ?_
  split
  · exact .pure ⟨first, rfl, trivial⟩
  · exact returns_node.imp fun _ ⟨tree, eq, _⟩ => ⟨tree, eq, trivial⟩

omit h in
/-- A template has nothing but substitutions between its back-quotes. -/
theorem returns_templateTail {fuel : Nat} :
    Returns (Rule.templateTail run fuel) fun trees =>
      ∀ tree ∈ trees, tree.IsAmong ["template_substitution"] := by
  induction fuel with
  | zero => exact .failure
  | succ fuel ih =>
    refine .next fun _ => ?_
    split
    · exact returns_mark_among
    · exact returns_append returns_node_among fun _ => ih
    · split
      · exact .next fun _ => ih
      · exact .failure
    · exact .failure
    · exact .next fun _ => ih
    · exact .failure

/-- The substitutions of a template have tokens. The induction is on the pieces that are left. -/
theorem templateTail {fuel : Nat} : Sound source (Rule.templateTail run fuel) := by
  induction fuel with
  | zero => exact .failure
  | succ fuel ih =>
    refine .upcoming fun _ => ?_
    split
    · exact mark
    · refine append ?_ fun _ => ih
      exact .single ⟨.mark, expressions h, .mark, trivial⟩
        (.plain returns_mark_other (.special returns_expressions ⟨returns_mark_other, trivial⟩))
    · split
      · exact .advance ih
      · exact .failure
    · exact .failure
    · exact .advance ih
    · exact .failure

theorem template : Sound source (Rule.template run) :=
  .one (.parted rfl
    (.bind mark fun _ hq => .upcoming fun _ => .bind (templateTail h) fun _ ht =>
      .pure (forest_append.2 ⟨hq, ht⟩))
    (.bind returns_mark_among fun _ hq => .next fun _ => .bind returns_templateTail fun _ ht =>
      .pure (List.forall_mem_append.2 ⟨hq, ht⟩)))

/-! ## Functions and classes -/

theorem block {inExpression : Bool} : Sound source (Rule.block run inExpression) := .one (h _)

theorem functionExpression : Sound source (Rule.functionExpression run) := by
  refine .bind (modified softWord (.seq ⟨.word, .opt .mark, .opt (.field .identifier),
    callSignature h, .field (block h), trivial⟩)) fun children hc => ?_
  dsimp only
  split <;> exact node (.pure hc)

theorem arrowBody : Sound source (Rule.arrowBody run context) :=
  .field (.either (block h) (.one (h _)))

theorem arrowFunction : Sound source (Rule.arrowFunction run context) := by
  have tail : Sound source (Rule.seq [Rule.mark "=>", Rule.arrowBody run context]) :=
    .seq ⟨.mark, arrowBody h, trivial⟩
  refine .node (.modified softWord (.either (.seq ⟨.field .identifier, tail, trivial⟩)
    (.seq ⟨.ifAfterClosing ?_, tail, trivial⟩)))
  split
  · exact callSignature h
  · exact .seq ⟨.opt (typeParameters h), .field (parameters h), trivial⟩

theorem extendsClause : Sound source (Rule.extendsClause run) :=
  .node (.seq ⟨.word, .sepBy1 .mark (.seq ⟨.field (.one (h _)), .opt (.field (typeArguments h)),
    trivial⟩), trivial⟩)

theorem classHeritage : Sound source (Rule.classHeritage run) :=
  have implements := .node (.seq ⟨.word, .sepBy1 .mark (type h), trivial⟩)
  .node (.either (.seq ⟨extendsClause h, .opt implements, trivial⟩) implements)

theorem classTail : Sound source (Rule.classTail run) :=
  .seq ⟨.opt (.field (typeParameters h)), .opt (classHeritage h), .field (.one (h _)), trivial⟩

omit h in
theorem className : Sound source Rule.className := .field .nameBut

theorem classExpression : Sound source (Rule.classExpression run) :=
  .node (.seq ⟨decorators h, .word, .opt className, classTail h, trivial⟩)

/-! ## Objects and arrays -/

theorem methodDefinition : Sound source (Rule.methodDefinition run) :=
  .node (.modifiedBy methodModifiers
    (.seq ⟨optionalName h, callSignature h, .field (block h), trivial⟩))

omit h in
theorem lone_propertyName : Lone (Rule.propertyName run) :=
  .firstOf ⟨.name, .privateName, .string, .number, .node, trivial⟩

theorem objectEntry : Sound source (Rule.objectEntry run) :=
  .firstOf ⟨.node (.seq ⟨.mark, expression h, trivial⟩),
    .one (.joined_seq rfl (propertyName h) lone_propertyName ⟨.mark, .field (expression h), trivial⟩
      (.plain returns_mark_beside (.special (returns_field returns_one) trivial))),
    methodDefinition h, .name, trivial⟩

theorem object : Sound source (Rule.object run) :=
  .node (.seq ⟨.mark, .commaList (objectEntry h), .mark, trivial⟩)

theorem array : Sound source (Rule.array run) :=
  have spread := .node (.seq ⟨.mark, expression h, trivial⟩)
  .node (.seq ⟨.mark, .commaList (.either spread (expression h)), .mark, trivial⟩)

theorem patternAssignment : Sound source (Rule.patternAssignment run context) :=
  .one (.joined_seq rfl (destructuring h) (.either .node .node)
    ⟨.equals, .field (.one (h _)), trivial⟩
    (.plain returns_equals (.special (returns_field returns_one) trivial)))

theorem literalOrPattern (hl : Sound source rule) :
    Sound source (Rule.literalOrPattern run context rule) :=
  .either (.bind hl fun _ hc => .bind yields_lookPast fun _ _ => .require fun _ => .pure hc)
    (patternAssignment h)

/-! ## Operands -/

theorem parenthesized : Sound source (Rule.parenthesized run) :=
  .node (.seq ⟨.mark, expressions h, .opt (.field (ascription h)), .mark, trivial⟩)

omit h in
theorem memberTail (ht : Tokenized (.ofChars source) target) (hs : Sound source rule)
    (beside : Returns rule fun trees =>
      ∀ tree ∈ trees, tree.IsBeside ["optional_chain", "type_arguments"]) :
    Sound source (Rule.memberTail target rule) :=
  .joined rfl ht ⟨hs, .property (.either .privateName .name), trivial⟩
    (.plain beside (.special (returns_part (.either .privateName .name)) trivial))

theorem subscriptTail (ht : Tokenized (.ofChars source) target) {signs : List Rule}
    (hs : Each (Sound source) signs)
    (beside : Each (fun rule => Returns rule fun trees =>
      ∀ tree ∈ trees, tree.IsBeside ["optional_chain"]) signs) :
    Sound source (Rule.subscriptTail run target signs) :=
  .joined rfl ht (hs.append ⟨.mark, .field (expressions h), .mark, trivial⟩)
    (.append beside (.plain returns_mark_beside
      (.special (returns_field returns_expressions) ⟨returns_mark_beside, trivial⟩)))

theorem taggedTemplate (ht : Tokenized (.ofChars source) target) :
    Sound source (Rule.node "call_expression" (Rule.after (target.withField "function")
      [Rule.field "arguments" (Rule.template run)])) :=
  .joined rfl ht ⟨.field (template h), trivial⟩ (.special (returns_part .node) trivial)

theorem constructorTail (ht : Tokenized (.ofChars source) target) :
    Sound source (Rule.constructorTail run target) :=
  .firstOf ⟨memberTail ht .mark returns_mark_beside, subscriptTail h ht trivial trivial,
    .node (.after ht ⟨.markBut, trivial⟩), taggedTemplate h ht, trivial⟩

theorem newExpression (hp : Sound source rule) : Sound source (Rule.newExpression run rule) :=
  .either (.node (.seq ⟨.word, .mark, .word, trivial⟩)) (.node (.seq ⟨.word,
    .field (.one (.extended (.only hp) fun _ => constructorTail h)),
    .opt (.seq ⟨.opt (.field (typeArguments h)), .field (arguments h), trivial⟩),
    .opt (.field (typeArguments h)), trivial⟩))

omit h in
theorem importExpression : Sound source Rule.importExpression :=
  .either (.node (.seq ⟨.word, .mark, .word, trivial⟩)) .namedWord

theorem internalModule : Sound source (Rule.internalModule run) :=
  .node (.seq ⟨.softWord, .field (.either .string nestedName), .opt (.field (block h)), trivial⟩)

omit h in
theorem valueWord {word : String} (mem : word ∈ Rule.valueWords) :
    Sound source (Rule.namedWord word word) :=
  have words : ∀ word ∈ Rule.valueWords,
      word ∉ wordlessKinds ∧ word ≠ "" := by decide
  have := Evident.of (words word mem).1
  have := Evident.of (words word mem).2
  .namedWord

/-- An operand that begins with a word: a keyword with what belongs to it, or else a name. -/
theorem wordOperand (hp : Sound source rule) :
    Sound source (Rule.wordOperand run context rule) := by
  refine .upcoming fun _ => ?_
  dsimp only
  split
  · next value => exact valueWord (List.contains_iff_mem.1 value)
  · split
    · exact functionExpression h
    · exact classExpression h
    · exact newExpression h hp
    · exact importExpression
    · exact firstOf ⟨functionExpression h, arrowFunction h, identifier, trivial⟩
    · exact firstOf ⟨internalModule h, arrowFunction h, identifier, trivial⟩
    · exact either (arrowFunction h) identifier

theorem typeAssertion : Sound source (Rule.typeAssertion run context) :=
  .node (.seq ⟨typeArguments h, .one (h _), trivial⟩)

/-- An operand, by the character that it begins with. -/
theorem primaryWithin {fuel : Nat} : Sound source (Rule.primaryWithin run context fuel) := by
  induction fuel with
  | zero => exact .failure
  | succ fuel ih =>
    refine .upcoming fun _ => ?_
    split
    · exact either (arrowFunction h) (parenthesized h)
    · exact literalOrPattern h (array h)
    · exact literalOrPattern h (object h)
    · exact template h
    · exact string
    · exact string
    · exact regex
    · exact either (arrowFunction h) (typeAssertion h)
    · exact classExpression h
    · exact privateName
    · split
      · exact number
      · exact wordOperand h ih
    · exact .failure

theorem primary : Sound source (Rule.primary run context) := .upcoming fun _ => primaryWithin h

omit h in
theorem optionalChain : Sound source Rule.optionalChain := by
  refine .one (.signed (.bind yields_sign fun _ signs => .upcoming fun _ => ?_))
  exact .require fun _ => .pure signs

/-- A call behind a sign. The sign is among its parts, so it is a joined construct with a sign. -/
theorem optionalCall (ht : Tokenized (.ofChars source) target) :
    Sound source (Rule.node "call_expression" (Rule.after (target.withField "function")
      [Rule.mark signKind, Rule.opt (Rule.field "type_arguments" (Rule.typeArguments run)),
        Rule.field "arguments" (Rule.arguments run)])) := by
  refine joined_signed rfl ht ?_ (Spared.andThen (fun _ mark => mark.isBeside)
    (.plain returns_mark_beside (.plain (returns_opt (returns_field_beside returns_node_beside))
      (.special (returns_part .node) trivial))))
  have rest : Sound source (Rule.andThen
      [Rule.opt (Rule.field "type_arguments" (Rule.typeArguments run)),
        Rule.field "arguments" (Rule.arguments run)]) :=
    andThen ⟨.opt (.field (typeArguments h)), .field (arguments h), trivial⟩
  refine .get fun _ here => .bind sound_comments fun between hb =>
    .bind yields_sign fun own ho => ?_
  split
  · exact .set here (rest.imp fun _ hr part mem => .inr (hr part mem))
  · refine .bind rest fun later hl => .pure (List.forall_mem_append.2 ⟨List.forall_mem_append.2
      ⟨fun part mem => .inr (hb part mem), fun part mem => .inl ⟨ho part mem, by decide⟩⟩,
      fun part mem => .inr (hl part mem)⟩)

theorem instantiation (ht : Tokenized (.ofChars source) target) :
    Sound source (Rule.instantiation run context target) :=
  .either (.joined rfl ht ⟨.field (typeArguments h), .field (arguments h), trivial⟩
    (.plain (returns_field_beside returns_node_beside) (.special (returns_part .node) trivial))) <|
    .require fun _ => .bind (node (after ht ⟨.field (typeArguments h), trivial⟩)) fun _ hc =>
      .upcoming fun _ => .bind yields_lookPast fun _ _ => .require fun _ => .pure hc

theorem postfixTail (ht : Tokenized (.ofChars source) target) :
    Sound source (Rule.postfixTail run context target) :=
  .firstOf ⟨memberTail ht .mark returns_mark_beside, subscriptTail h ht trivial trivial,
    .joined rfl ht ⟨.field (arguments h), trivial⟩ (.special (returns_part .node) trivial),
    taggedTemplate h ht, .node (.after ht ⟨.markBut, trivial⟩),
    memberTail ht optionalChain returns_node_beside,
    subscriptTail h ht ⟨optionalChain, trivial⟩ ⟨returns_node_beside, trivial⟩,
    optionalCall h ht, instantiation h ht, trivial⟩

theorem operand : SoundTree source (Rule.operand run context) :=
  .extended (.only (primary h)) fun _ ht => .require fun _ => .upcoming fun _ => .require fun _ =>
    postfixTail h ht

theorem leftHand : SoundTree source (Rule.leftHand run) :=
  .bind (operand h) fun _ ht => .require fun _ => .pure ht

omit h in
theorem assignmentOperator : Sound source Rule.assignmentOperator :=
  .firstOf ⟨mark, mark, mark, mark, mark, mark, mark, mark, mark, mark, mark, mark, mark, mark,
    mark, trivial⟩

theorem assignmentTail (ht : Tokenized (.ofChars source) target) :
    Sound source (Rule.assignmentTail run context target) :=
  .require fun _ => either
    (.one (.joined_continued rfl ht ⟨.equals, .field (.one (h _)), trivial⟩
      (.plain returns_equals (.special (returns_field returns_one) trivial))))
    (node (.cons ht.inField
      (.continued (.seq ⟨.field assignmentOperator, .field (.one (h _)), trivial⟩))))

omit h in
theorem updateTail (ht : Tokenized (.ofChars source) target) :
    Sound source (Rule.updateTail context target) :=
  .node (.cons ht.inField (.continued (.either .mark .mark)))

theorem assignment : Sound source (Rule.assignment run context) :=
  .bind (operand h) fun _ ht => firstOf
    ⟨assignmentTail h ht, updateTail ht, .pure (forest_cons.2 ⟨ht, forest_nil⟩), trivial⟩

/-! ## Operators -/

omit h in
theorem unaryWord {word : String} (mem : word ∈ Rule.unaryWords) : Sound source (Rule.word word) :=
  have words : ∀ word ∈ Rule.unaryWords, word ∉ tokenKinds := by decide
  have := Evident.of (words word mem)
  .word

/-- An operator ahead of an operand, or an operand by itself. -/
theorem unary : Sound source (Rule.unary run context) := by
  have prefixed {kind : String} {sign : Rule} (hs : Sound source sign)
      [Evident (kind ∉ tokenKinds)] :
      Sound source (Rule.node kind <| Rule.seq [Rule.field "operator" sign,
        Rule.field "argument" (Rule.one (run (.expression context unaryLevel)))]) :=
    .node (.seq ⟨.field hs, .field (.one (h _)), trivial⟩)
  refine .upcoming fun _ => ?_
  dsimp only
  split
  · exact prefixed mark
  · exact prefixed mark
  · exact prefixed mark
  · exact prefixed mark
  · exact prefixed mark
  · exact prefixed mark
  · split
    · next known => exact prefixed (unaryWord (List.contains_iff_mem.1 known))
    · split
      · exact node (seq ⟨word, one (h _), trivial⟩)
      · refine node (append ?_ fun _ => .opt (.continued
          (.either (.seq ⟨.mark, .one (h _), trivial⟩) (.one (h _)))))
        exact word
      · exact assignment h

omit h in
/-- The kind of an operator is that of a word or of a punctuation of the tables, and none whose text
matters. -/
theorem yields_binaryOperator {level : Nat} :
    Yields source (Rule.binaryOperator context level) fun found =>
      Tokenized (.ofChars source) found.1 := by
  have signs : ∀ found ∈ binaryOperators, found.1 ∉ tokenKinds := by decide
  have words : ∀ found ∈ wordOperators, found.1 ∉ tokenKinds := by decide
  refine .upcoming fun _ => .require fun _ => .require fun _ => ?_
  split
  · next found =>
    have := Evident.of (signs _ (List.mem_of_find?_eq_some found))
    exact .require fun _ => .bind SoundTree.token fun _ ht => .pure ht
  · split
    · next found =>
      have := Evident.of (words _ (List.mem_of_find?_eq_some found))
      exact .require fun _ => .bind SoundTree.token fun _ ht => .pure ht
    · exact .failure

theorem binaryTail {level : Nat} (ht : Tokenized (.ofChars source) target) :
    Sound source (Rule.binaryTail run context level target) :=
  .node (.bind gap fun _ hb => .bind yields_binaryOperator fun _ ho =>
    .bind (andThen ⟨field (one (h _)), trivial⟩) fun _ hr => .pure
      (forest_append.2 ⟨forest_cons.2 ⟨ht.inField, hb⟩, forest_cons.2 ⟨ho.inField, hr⟩⟩))

omit h in
theorem choiceMark : Sound source Rule.choiceMark := by
  refine .upcoming fun _ => ?_
  split
  · exact .require fun _ => .require fun _ => mark
  · exact .failure

theorem choiceTail (ht : Tokenized (.ofChars source) target) :
    Sound source (Rule.choiceTail run context target) := by
  have branches {returnTypes : Bool} : Sound source (Rule.andThen [
      Rule.field "consequence" (Rule.one (run (.expression { returnTypes } 0))), Rule.mark ":",
      Rule.field "alternative" (Rule.one (run (.expression context 0)))]) :=
    .andThen ⟨.field (.one (h _)), .mark, .field (.one (h _)), trivial⟩
  exact .node (.bind (continued choiceMark) fun _ hh => .bind (either branches branches) fun _ hb =>
    .pure (forest_append.2 ⟨forest_cons.2 ⟨ht.inField, hh⟩, hb⟩))

theorem ascribedTail (ht : Tokenized (.ofChars source) target) :
    Sound source (Rule.ascribedTail run context target) :=
  .either
    (.node (.cons ht (.continued (.seq ⟨.word, .either .word (.one (h _)), trivial⟩))))
    (.node (.cons ht (.continued (.seq ⟨.word, .one (h _), trivial⟩))))

theorem expressionRule {level : Nat} :
    SoundTree source (Rule.expressionRule run context level) := by
  unfold Rule.expressionRule
  split
  · exact .only (unary h)
  · refine .extended (.only (unary h)) fun left hl => ?_
    split
    · exact firstOf ⟨binaryTail h hl, choiceTail h hl, ascribedTail h hl, trivial⟩
    · split
      · exact either (binaryTail h hl) (choiceTail h hl)
      · exact binaryTail h hl

/-! ## Bodies of classes -/

theorem fieldTail : Sound source (Rule.fieldTail run) :=
  have tail := .seq ⟨.field (propertyName h), .opt (.either .mark .mark),
    .opt (.field (ascription h)), .opt (initializer h), trivial⟩
  have free := .unlessWord tail
  have declared := .firstOf ⟨.seq ⟨.word, .modified .softWord tail, trivial⟩,
    .seq ⟨.word, tail, trivial⟩, .seq ⟨.softWord, .word, tail, trivial⟩,
    .seq ⟨.softWord, .modifiedBy ⟨override, softWord, trivial⟩ tail, trivial⟩,
    .modifiedBy ⟨override, softWord, trivial⟩ free, trivial⟩
  .firstOf ⟨.modifiedBy ⟨softWord, accessibility, trivial⟩ declared,
    .modifiedBy ⟨accessibility, softWord, trivial⟩ declared, trivial⟩

theorem abstractSignature : Sound source (Rule.abstractSignature run) :=
  .node (.modified accessibility (.bind word fun _ hh => .bind (andThen
    ⟨.modifiedBy ⟨override, firstOf ⟨softWord, softWord, mark, trivial⟩, trivial⟩
      (.seq ⟨optionalName h, callSignature h, trivial⟩), trivial⟩) fun _ ht =>
    .require fun _ => .pure (forest_append.2 ⟨hh, ht⟩)))

theorem staticBlock : Sound source (Rule.staticBlock run) :=
  .node (.seq ⟨.softWord, .field (block h), trivial⟩)

omit h in
theorem endedMember {inExpression : Bool} (hm : Sound source rule) :
    Sound source (Rule.endedMember inExpression rule) :=
  .append hm fun _ => .either semicolon (.andThen ⟨.mark, trivial⟩)

theorem fieldDefinition {decorators : List Tree} (hd : Forest source decorators) :
    Sound source (Rule.fieldDefinition run decorators) := by
  refine append ?_ fun _ => either semicolon (andThen ⟨mark, trivial⟩)
  refine node ?_
  split
  · exact fieldTail h
  · exact .bind (andThen ⟨fieldTail h, trivial⟩) fun _ ht => .pure (forest_append.2 ⟨hd, ht⟩)

theorem decoratedMethod {decorators : List Tree} (hd : Forest source decorators) :
    Sound source (Rule.decoratedMethod run decorators) := by
  unfold Rule.decoratedMethod
  split
  · exact methodDefinition h
  · exact .bind (andThen ⟨methodDefinition h, trivial⟩) fun _ ht => .require fun _ =>
      .pure (forest_append.2 ⟨hd, ht⟩)

theorem endedSignature : Sound source (Rule.endedSignature run) :=
  .append (methodSignature h) fun _ => .firstOf ⟨bodilessEnd, .andThen ⟨.mark, trivial⟩, trivial⟩

theorem classMember : Sound source (Rule.classMember run) := by
  refine .upcoming fun _ => ?_
  split
  · exact mark
  · exact .bind (decorators h) fun _ hd => either (decoratedMethod h hd) (fieldDefinition h hd)
  · exact firstOf ⟨unlessWord (methodDefinition h), staticBlock h,
      endedMember (abstractSignature h), endedMember (indexSignature h),
      unlessWord (endedSignature h), fieldDefinition h forest_nil, trivial⟩

/-! ## What stands in a class -/

omit h

/-- A rule that yields members of a class, and what stands beside them. -/
def YieldsMembers (rule : Rule) : Prop :=
  Returns rule fun trees => ∀ tree ∈ trees, tree.IsAmong memberKinds

theorem returns_methodDefinition : YieldsMembers (Rule.methodDefinition run) := returns_node_among

theorem returns_end {inExpression beforeBody : Bool} {fuel : Nat} :
    YieldsMembers (Rule.semicolonWithin inExpression beforeBody fuel) :=
  returns_semicolonWithin.imp fun _ marks tree mem => (marks tree mem).isAmong

theorem returns_comma : YieldsMembers (Rule.andThen [Rule.mark ","]) :=
  returns_andThen (fun _ mark => mark.isAmong) ⟨returns_mark_among, trivial⟩

theorem returns_endedMember {inExpression : Bool} (hm : YieldsMembers rule) :
    YieldsMembers (Rule.endedMember inExpression rule) :=
  returns_append hm fun _ => returns_either (.next fun _ => returns_end) returns_comma

theorem returns_endedSignature : YieldsMembers (Rule.endedSignature run) :=
  returns_append returns_node_among fun _ =>
    returns_firstOf ⟨.next fun _ => returns_end, returns_comma, trivial⟩

theorem returns_fieldDefinition {decorators : List Tree} :
    YieldsMembers (Rule.fieldDefinition run decorators) :=
  returns_append returns_node_among fun _ =>
    returns_either (.next fun _ => returns_end) returns_comma

theorem returns_decorators : YieldsMembers (Rule.decorators run) :=
  returns_field_among (returns_many (fun _ mark => mark.isAmong) returns_node_among)

theorem returns_decoratedMethod {decorators : List Tree}
    (hd : ∀ tree ∈ decorators, tree.IsAmong memberKinds) :
    YieldsMembers (Rule.decoratedMethod run decorators) := by
  unfold Rule.decoratedMethod
  split
  · exact returns_methodDefinition
  · have tail : YieldsMembers (Rule.andThen [Rule.methodDefinition run]) :=
      returns_andThen (fun _ mark => mark.isAmong) ⟨returns_methodDefinition, trivial⟩
    exact .bind tail fun _ ht => .next fun _ => .pure (List.forall_mem_append.2 ⟨hd, ht⟩)

theorem returns_classMember : YieldsMembers (Rule.classMember run) := by
  refine .next fun _ => ?_
  split
  · exact returns_mark_among
  · exact .bind returns_decorators fun _ hd =>
      returns_either (returns_decoratedMethod hd) returns_fieldDefinition
  · exact returns_firstOf ⟨returns_unlessWord returns_node_among, returns_node_among,
      returns_endedMember returns_node_among, returns_endedMember returns_node_among,
      returns_unlessWord returns_endedSignature, returns_fieldDefinition, trivial⟩

include h

theorem classBodyRule : SoundTree source (Rule.classBodyRule run) :=
  .parted rfl (.seq ⟨.mark, .many (classMember h), .mark, trivial⟩)
    (returns_seq (fun _ mark => mark.isAmong) ⟨returns_mark_among,
      returns_many (fun _ mark => mark.isAmong) returns_classMember, returns_mark_among, trivial⟩)

end ElementWrapper.Source.Sound
