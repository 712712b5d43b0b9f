import ElementWrapper.Proofs.Source.Outlines

/-!
The trees that the rules of the grammar yield. There is one lemma for each rule, given that the
goals it refers to yield trees with tokens.
-/

namespace ElementWrapper.Source.Sound

variable {source : List Char} {rule : Rule} {kind : String} {run : Goal → Reader Tree}
  (h : ∀ goal, SoundTree source (run goal))

include h

/-! ## Rules of all kinds -/

theorem expression : Sound source (Rule.expression run) := .one (h _)

theorem expressions {context : Context} : Sound source (Rule.expressions run context) := by
  refine .bind (h _) fun first hf =>
    .bind (many (continued (.seq ⟨.mark, .one (h _), trivial⟩))) fun tail ht => ?_
  split
  · exact .pure (forest_cons.2 ⟨hf, forest_nil⟩)
  · exact node (.pure (forest_cons.2 ⟨hf, ht⟩))

theorem type : Sound source (Rule.type run) := .one (h _)

theorem typeArguments : Sound source (Rule.typeArguments run) :=
  .node (.seq ⟨.mark, .sepBy1 .mark (.type h), .opt .mark, .mark, trivial⟩)

theorem typeParameters : Sound source (Rule.typeParameters run) :=
  have constraint := .node (.seq ⟨.either .word .mark, .type h, trivial⟩)
  have default := .node (.seq ⟨.equals, .type h, trivial⟩)
  have parameter := .node (.modified .word (.seq ⟨.name, .opt constraint, .opt default, trivial⟩))
  .node (.seq ⟨.mark, .sepBy1 .mark parameter, .opt .mark, .mark, trivial⟩)

theorem ascription {ends : Bool} : Sound source (Rule.ascription run ends) :=
  .node (.seq ⟨.mark, .one (h _), trivial⟩)

theorem typePredicate {ends : Bool} : Sound source (Rule.typePredicate run ends) :=
  .node (.seq ⟨.either .namedWord .identifier, .word, .one (h _), trivial⟩)

theorem asserts {ends : Bool} : Sound source (Rule.asserts run ends) :=
  .node (.seq ⟨.word, .firstOf ⟨typePredicate h, .namedWord, .identifier, trivial⟩, trivial⟩)

theorem returnType {ends : Bool} : Sound source (Rule.returnType run ends) :=
  .firstOf ⟨.node (.seq ⟨.mark, asserts h, trivial⟩),
    .node (.seq ⟨.mark, typePredicate h, trivial⟩), ascription h, trivial⟩

theorem initializer {context : Context} : Sound source (Rule.initializer run context) :=
  .seq ⟨.equals, .field (.one (h _)), trivial⟩

theorem computedName : Sound source (Rule.computedName run) :=
  .single ⟨.mark, expression h, .mark, trivial⟩
    (.plain returns_mark_other (.special returns_one ⟨returns_mark_other, trivial⟩))

theorem propertyName : Sound source (Rule.propertyName run) :=
  .firstOf ⟨.name, .privateName, .string, .number, computedName h, trivial⟩

/-! ### Patterns -/

theorem withDefault (ht : Sound source rule) [plain : Evident (kind ∉ tokenKinds)] :
    Sound source (Rule.withDefault run kind rule) := by
  refine .bind ht fun head hh => .bind (opt ?_) fun tail ht => ?_
  · exact .bind (andThen ⟨equals, expression h, trivial⟩) fun _ ht => .require fun _ => .pure ht
  · split
    · exact .pure hh
    · exact node (.pure (forest_append.2 ⟨hh, ht⟩))

theorem restPattern : Sound source (Rule.restPattern run) :=
  .node (.seq ⟨.mark, .one (h _), trivial⟩)

theorem entryPattern : Sound source (Rule.entryPattern run) :=
  .firstOf ⟨.node (.seq ⟨.field (propertyName h), .mark, .field (withDefault h (.one (h _))),
    trivial⟩), restPattern h, withDefault h .name, trivial⟩

theorem objectPattern : Sound source (Rule.objectPattern run) :=
  .node (.seq ⟨.mark, .commaList (entryPattern h), .mark, trivial⟩)

theorem arrayPattern : Sound source (Rule.arrayPattern run) :=
  .node (.seq ⟨.mark, .commaList (withDefault h (.one (h _))), .mark, trivial⟩)

theorem destructuring : Sound source (Rule.destructuring run) :=
  .either (objectPattern h) (arrayPattern h)

theorem pattern : Sound source (Rule.pattern run) :=
  .firstOf ⟨restPattern h, destructuring h, .one (h _), trivial⟩

theorem binding : Sound source (Rule.binding run) := .either (destructuring h) .identifier

/-! ### Calls, decorators and parameters -/

theorem arguments : Sound source (Rule.arguments run) :=
  have spread := .node (.seq ⟨.mark, expression h, trivial⟩)
  .node (.seq ⟨.mark, .commaList (.either spread (expression h)), .mark, trivial⟩)

omit h in
theorem dotted : SoundTree source Rule.dotted :=
  .extended (.only .identifier) fun _ ht => .joined rfl ht ⟨.mark, .property .name, trivial⟩
    (.plain returns_mark_beside (.special (returns_part .name) trivial))

theorem decoratorTarget : Sound source (Rule.decoratorTarget run) :=
  .bind dotted fun _ ht => either (.joined rfl ht
    ⟨.opt (typeArguments h), .field (arguments h), trivial⟩
    (.plain (returns_opt returns_node_beside) (.special (returns_part .node) trivial)))
    (.pure (forest_cons.2 ⟨ht, forest_nil⟩))

theorem decorator : Sound source (Rule.decorator run) :=
  have parenthesized := .node (.seq ⟨.mark, decoratorTarget h, .mark, trivial⟩)
  .node (.seq ⟨.mark, .either parenthesized (decoratorTarget h), trivial⟩)

theorem decorators : Sound source (Rule.decorators run) := .field (.many (decorator h))

theorem parameter : Sound source (Rule.parameter run) := by
  refine .bind (seq ⟨decorators h, .modifiedBy ⟨accessibility, override, word, trivial⟩
    (.field (.either .namedWord (.one (h _)))), .opt .mark, .opt (ascription h),
    .opt (initializer h), trivial⟩) fun children hc => ?_
  dsimp only
  split <;> exact node (.pure hc)

theorem parameters : Sound source (Rule.parameters run) :=
  .node (.seq ⟨.mark, .opt (.seq ⟨.sepBy1 .mark (parameter h), .opt .mark, trivial⟩), .mark,
    trivial⟩)

theorem callSignature {ends : Bool} : Sound source (Rule.callSignature run ends) :=
  .seq ⟨.opt (typeParameters h), .field (parameters h), .opt (returnType h), trivial⟩

/-! ## Types -/

omit h in
theorem memberModifiers : Each (Sound source) Rule.memberModifiers :=
  ⟨accessibility, softWord, override, softWord, trivial⟩

omit h in
theorem methodModifiers : Each (Sound source) Rule.methodModifiers :=
  ⟨accessibility, softWord, override, softWord, softWord,
    firstOf ⟨softWord, softWord, mark, trivial⟩, trivial⟩

theorem optionalName : Sound source (Rule.optionalName run) :=
  .seq ⟨.field (propertyName h), .opt .mark, trivial⟩

theorem methodSignature {ends : Bool} : Sound source (Rule.methodSignature run ends) :=
  .node (.modifiedBy methodModifiers (.seq ⟨optionalName h, callSignature h, trivial⟩))

theorem mappedClause : Sound source (Rule.mappedClause run) :=
  .node (.seq ⟨.field .name, .word, .field (type h), .opt (.seq ⟨.word, .field (type h), trivial⟩),
    trivial⟩)

theorem indexSignature {ends : Bool} : Sound source (Rule.indexSignature run ends) :=
  have sign := .seq ⟨.opt (.either .mark .mark), .word, trivial⟩
  have key := .seq ⟨.field .identifier, .mark, .field (type h), trivial⟩
  .node (.seq ⟨.opt sign, .mark, .either key (mappedClause h), .mark,
    .field (.firstOf ⟨ascription h, .node (.seq ⟨.mark, .one (h _), trivial⟩),
      .node (.seq ⟨.mark, .one (h _), trivial⟩), .node (.seq ⟨.mark, .one (h _), trivial⟩),
      trivial⟩), trivial⟩)

theorem typeMember : Sound source (Rule.typeMember run) :=
  .firstOf ⟨indexSignature h,
    .node (.modified .word (.seq ⟨.word, .opt (typeParameters h), .field (parameters h),
      .opt (ascription h), trivial⟩)),
    .node (callSignature h), methodSignature h,
    .node (.modifiedBy memberModifiers
      (.seq ⟨optionalName h, .opt (.field (ascription h)), trivial⟩)), trivial⟩

omit h in
theorem beforeBrace : Sound source Rule.beforeBrace :=
  .bind yields_lookPast fun _ _ => .require fun _ => .pure forest_nil

theorem objectType [plain : Evident (kind ∉ tokenKinds)] :
    Sound source (Rule.objectType run kind) :=
  .node (.seq ⟨.mark, .opt (.either .mark .mark), .many (.append (typeMember h) fun _ =>
    .firstOf ⟨andThen ⟨mark, trivial⟩, semicolon, beforeBrace, trivial⟩), .mark, trivial⟩)

omit h in
theorem builtInType : Sound source Rule.builtInType := .upcoming fun _ => .require fun _ => token

omit h

/-- The last of the trees is a name. -/
def EndsNamed (source : List Char) (trees : List Tree) : Prop :=
  Forest source trees ∧ ∃ init last, trees = init ++ [last] ∧ last.kind ∈ nameKinds

theorem EndsNamed.of_names {before trees : List Tree} (hb : Forest source before)
    (h : AreNames source trees) : EndsNamed source (before ++ trees) := by
  obtain ⟨own, filled, names⟩ := h
  refine ⟨forest_append.2 ⟨hb, own⟩, before ++ trees.dropLast, trees.getLast filled, ?_,
    names _ (List.getLast_mem filled)⟩
  rw [List.append_assoc, List.dropLast_append_getLast]

theorem EndsNamed.append {before trees : List Tree} (hb : Forest source before)
    (h : EndsNamed source trees) : EndsNamed source (before ++ trees) := by
  obtain ⟨own, init, last, rfl, name⟩ := h
  exact ⟨forest_append.2 ⟨hb, own⟩, before ++ init, last, (List.append_assoc ..).symm, name⟩

/-- What comes last is a name if the second rule yields names. -/
theorem yields_andThen_named {first second : Rule} (hf : Sound source first)
    (hs : Named source second) :
    Yields source (Rule.andThen [first, second]) (EndsNamed source) := by
  have ends : Yields source (Rule.andThen [second]) (EndsNamed source) := by
    refine .get fun _ _ => .bind sound_comments fun between hb => .bind hs fun own ho => ?_
    split
    · next empty => exact absurd (List.isEmpty_iff.1 empty) ho.2.1
    · exact .pure ((List.append_nil _).symm ▸ .of_names hb ho)
  refine .get fun _ here => .bind sound_comments fun between hb => .bind hf fun own ho => ?_
  split
  · exact .set here ends
  · exact .bind ends fun later hl => .pure (.append (forest_append.2 ⟨hb, ho⟩) hl)

/-- A name, or names with dots between them. -/
structure IsPath (source : List Char) (tree : Tree) : Prop where
  tokenized : Tokenized (.ofChars source) tree
  ends : tree.kind = "nested_identifier" → EndsNamed source tree.children

theorem yields_nestedName :
    Yields source Rule.nestedName fun trees => ∀ tree ∈ trees, IsPath source tree := by
  refine .one (.extended (.only ?_) fun target ht => .one ?_)
  · have names : Named source Rule.identifier := .name
    refine names.imp fun trees h tree mem => ⟨h.1 tree mem, fun kind => ?_⟩
    exact absurd (kind ▸ h.2.2 tree mem) (by decide)
  · refine (Yields.tree (P := EndsNamed source) ?_).imp fun tree ⟨kind, named, field, ends⟩ =>
      ⟨.of_not_mem (by rw [kind]; decide) named field ends.1, fun _ => ends⟩
    refine .bind (yields_andThen_named mark (.field .name)) fun tail part => .require fun _ =>
      .pure (.append (forest_cons.2 ⟨?_, forest_nil⟩) part)
    exact ht.tokenized.inField

theorem nestedName : Sound source Rule.nestedName :=
  yields_nestedName.imp fun _ path tree mem => (path tree mem).tokenized

/-- The name of a type is a name, or a path whose last name is read anew as that of a type. -/
theorem typeName : Sound source Rule.typeName := by
  refine .either (.bind (.only yields_nestedName) fun path hp => ?_) .name
  split
  · next start stop children =>
    obtain ⟨own, init, last, eq, name⟩ := hp.ends rfl
    obtain rfl : children = init ++ [last] := eq
    obtain ⟨before, own⟩ := forest_append.1 own
    have isName := (forest_cons.1 own).1.fits.name name
    obtain ⟨kind, named, missing, field, s, e, below⟩ := last
    rw [List.reverse_append]
    have renamed : Tokenized (.ofChars source) (.node "type_identifier" true missing none s e []) :=
      .node (Lexeme.fits (.of_isName isName (by decide)) rfl) nofun
    have plain : "nested_type_identifier" ∉ tokenKinds := by decide
    refine .pure (forest_cons.2 ⟨.of_not_mem plain rfl rfl ?_, forest_nil⟩)
    refine List.forall_mem_append.2 ⟨List.forall_mem_map.2 fun child mem => ?_,
      forest_cons.2 ⟨renamed.inField, forest_nil⟩⟩
    have own := before child (List.mem_reverse.1 (List.mem_reverse.1 mem))
    split
    · exact own.inField
    · exact own
  · exact .failure

include h

theorem namedType {ends : Bool} : Sound source (Rule.namedType run ends) :=
  .bind (.only typeName) fun _ hn =>
    either (node (.bind gap fun _ hb => .bind (field (typeArguments h)) fun _ ha =>
      .pure (forest_append.2 ⟨forest_cons.2 ⟨hn.inField, hb⟩, ha⟩)))
      (.pure (forest_cons.2 ⟨hn, forest_nil⟩))

theorem importCall : SoundTree source (Rule.tree "call_expression" (Rule.seq
    [Rule.field "function" (Rule.namedWord "import" "import"),
      Rule.field "arguments" (Rule.arguments run)])) :=
  .joined_seq rfl .namedWord .namedWord ⟨.field (arguments h), trivial⟩
    (.special (returns_part .node) trivial)

theorem typeQuery : Sound source (Rule.typeQuery run) :=
  have target := .firstOf ⟨.namedWord, .one (importCall h), .identifier, trivial⟩
  .node (.seq ⟨.word, .one (.extended (.only target) fun _ ho => .firstOf ⟨
    .joined rfl ho ⟨.mark, .property (.either .privateName .name), trivial⟩
      (.plain returns_mark_beside (.special (returns_part (.either .privateName .name)) trivial)),
    .joined rfl ho
      ⟨.mark, .field (.firstOf ⟨builtInType, .string, .number, trivial⟩), .mark, trivial⟩
      (.plain returns_mark_beside (.special (returns_part (.firstOf ⟨.builtInType, .string, .number,
        trivial⟩)) ⟨returns_mark_beside, trivial⟩)), trivial⟩),
    .opt (typeArguments h), trivial⟩)

theorem importedType : Sound source (Rule.importedType run) :=
  .one (.extended (importCall h) fun _ ho =>
    .joined rfl ho ⟨.mark, .property .name, .opt (typeArguments h), trivial⟩
      (.plain returns_mark_beside (.special (returns_part .name)
        ⟨returns_opt returns_node_beside, trivial⟩)))

omit h in
theorem literalType : Sound source Rule.literalType :=
  .node (.firstOf ⟨.node (.seq ⟨.field (.either .mark .mark), .field .number, trivial⟩), .number,
    .string, .namedWord, .namedWord, .namedWord, .namedWord, trivial⟩)

/-- An element of a tuple has a name, goes on with the rest, or is a type by itself. -/
theorem tupleType : Sound source (Rule.tupleType run) := by
  refine .node (.seq ⟨.mark, .commaList (.firstOf ⟨?named, ?rest, ?element, trivial⟩), .mark,
    trivial⟩)
  case named =>
    refine .bind (seq ⟨.field (.either (.node (.seq ⟨.mark, .identifier, trivial⟩)) .identifier),
      .opt .mark, .field (ascription h), trivial⟩) fun children hc => ?_
    dsimp only
    split <;> exact node (.pure hc)
  case rest => exact node (seq ⟨mark, type h, trivial⟩)
  case element =>
    exact .bind (.only (type h)) fun first hf =>
      either (node (after hf ⟨mark, trivial⟩)) (.pure (forest_cons.2 ⟨hf, forest_nil⟩))

/-- The pieces of the type of a template are types in braces. -/
theorem templatePieces {fuel : Nat} : Sound source (Rule.templatePieces run fuel) := by
  induction fuel with
  | zero => exact .failure
  | succ fuel ih =>
    refine .upcoming fun _ => ?_
    split
    · exact mark
    · refine append ?_ fun _ => ih
      exact .node (.seq ⟨.mark, type h, .mark, trivial⟩)
    · exact .advance ih
    · exact .advance ih
    · exact .failure

/-- A type without brackets behind it, by the character or the word that it begins with. -/
theorem simpleType {ends : Bool} : Sound source (Rule.simpleType run ends) := by
  refine .upcoming fun _ => ?_
  split
  · exact node (seq ⟨mark, type h, mark, trivial⟩)
  · exact objectType h
  · exact tupleType h
  · refine node (append ?_ fun _ => templatePieces h)
    exact mark
  · exact token
  · exact node (seq ⟨mark, one (h _), trivial⟩)
  · exact firstOf ⟨literalType, typeQuery h, importedType h,
      node (seq ⟨word, one (h _), trivial⟩), node (seq ⟨word, one (h _), trivial⟩),
      node (seq ⟨word, name, trivial⟩), node (seq ⟨word, word, trivial⟩), node word, word,
      either (followedBy builtInType) (namedType h), trivial⟩

theorem primaryType {ends : Bool} : SoundTree source (Rule.primaryType run ends) :=
  .extended (.only (simpleType h)) fun _ ht => .firstOf ⟨
    .node (.cons ht (.continued (.seq ⟨.mark, .mark, trivial⟩))),
    .node (.cons ht (.continued (.seq ⟨.mark, type h, .mark, trivial⟩))), trivial⟩

omit h in
/-- Types with a sign between them, each around all that stand before it. -/
theorem chained {sign : String} {ends : Bool} (ho : Sound source rule)
    [mark : Evident (sign ∉ tokenKinds)] [plain : Evident (kind ∉ tokenKinds)] :
    Sound source (Rule.chained kind sign ends rule) := by
  have grouped {whole : List Tree} (hw : Forest source whole) :
      Sound source (Rule.one (Rule.extended (Rule.only (pure whole)) fun left => Rule.node kind do
        return left :: (← Rule.continued ends false (Rule.seq [Rule.mark sign, rule])))) :=
    .one (.extended (.only (.pure hw)) fun _ ht =>
      .node (.cons ht (.continued (.seq ⟨.mark, ho, trivial⟩))))
  refine .bind (opt .mark) fun lead hl => ?_
  dsimp only
  split
  · exact .bind ho fun first hf => .require fun _ => .bind (.pure hf) fun _ => grouped
  · exact .bind (andThen ⟨ho, trivial⟩) fun first hf => .require fun _ =>
      .bind (node (.pure (forest_append.2 ⟨hl, hf⟩))) fun _ => grouped

theorem unionType {ends : Bool} : Sound source (Rule.unionType run ends) :=
  .chained (.chained (.one (primaryType h)))

theorem conditionalType {ends : Bool} : Sound source (Rule.conditionalType run ends) :=
  .bind (.only (unionType h)) fun _ hl => either
    (node (cons hl.inField (.continued (.seq ⟨.word, .field (type h), .mark, .field (type h), .mark,
      .field (.one (h _)), trivial⟩))))
    (.pure (forest_cons.2 ⟨hl, forest_nil⟩))

theorem functionType {ends : Bool} : Sound source (Rule.functionType run ends) :=
  .ifAfterClosing (.node (.seq ⟨.opt (typeParameters h), .field (parameters h), .mark,
    .field (.firstOf ⟨asserts h, typePredicate h, .one (h _), trivial⟩), trivial⟩))

theorem constructorType {ends : Bool} : Sound source (Rule.constructorType run ends) :=
  .node (.modified .word (.seq ⟨.word, .opt (typeParameters h), .field (parameters h), .mark,
    .field (.one (h _)), trivial⟩))

theorem typeRule {ends : Bool} : SoundTree source (Rule.typeRule run ends) := by
  refine .only (.upcoming fun _ => ?_)
  split
  · exact either (functionType h) (conditionalType h)
  · exact either (functionType h) (conditionalType h)
  · exact either (constructorType h) (conditionalType h)

end ElementWrapper.Source.Sound
