import ElementWrapper.Proofs.Source.Grammar.Expressions

/-!
The trees that the rules of statements and declarations yield.
-/

namespace ElementWrapper.Source.Sound

variable {source : List Char} {rule : Rule} {kind : String} {context : Context}
  {run : Goal → Reader Tree} (h : ∀ goal, SoundTree source (run goal))

include h

theorem statement : Sound source (Rule.statement run) := .one (h _)

theorem condition {name : String} [Evident (name ≠ "property")] :
    Sound source (Rule.condition run name) := .field (parenthesized h)

theorem expressionStatement : Sound source (Rule.expressionStatement run) :=
  .upcoming fun _ => .require fun _ => node (ended (expressions h))

/-! ## Declarations -/

/-- The declared variables have tokens. -/
def Declares (source : List Char) (reader : Reader (List Tree × Bool)) : Prop :=
  Yields source reader fun found => Forest source found.1

theorem declares_declarator : Declares source (Rule.declarator run context) :=
  .bind (node (.either
    (.seq ⟨.field .identifier, .mark, .field (ascription h), trivial⟩)
    (.seq ⟨.field (binding h), .opt (.field (ascription h)), .opt (initializer h), trivial⟩)))
    fun _ hc => .pure hc

theorem declares_declaratorsWithin {fuel : Nat} :
    Declares source (Rule.declaratorsWithin run context fuel) := by
  induction fuel with
  | zero => exact .failure
  | succ fuel ih =>
    refine .bind (declares_declarator h) fun first hf => .get fun before here =>
      .bind (opt (continued mark)) fun comma hc => ?_
    split
    · exact .set here (.pure hf)
    · exact .bind sound_comments fun between hb => .bind ih fun rest hr => .pure
        (forest_append.2 ⟨forest_append.2 ⟨forest_append.2 ⟨hf, hc⟩, hb⟩, hr⟩)

theorem declarationOf (hw : Sound source rule) [Evident (kind ∉ tokenKinds)] :
    Sound source (Rule.declarationOf run kind rule) :=
  .node (.bind hw fun _ hh => .bind sound_comments fun _ hb => .upcoming fun _ =>
    .bind (declares_declaratorsWithin h) fun _ hd => .bind semicolon fun _ hs => .pure
      (forest_append.2 ⟨forest_append.2 ⟨forest_append.2 ⟨hh, hb⟩, hd⟩, hs⟩))

theorem variableDeclaration : Sound source (Rule.variableDeclaration run) :=
  .firstOf ⟨declarationOf h .word, declarationOf h (.field .word),
    declarationOf h (.field (.followedBy .word)), trivial⟩

theorem functionDeclaration : Sound source (Rule.functionDeclaration run) := by
  refine .bind (modified (.followedBy .word) (.seq ⟨.word, .opt .mark, .field .identifier,
    callSignature h, trivial⟩)) fun head hh =>
    .bind (opt (.bind (andThen ⟨.field (block h), trivial⟩) fun _ hb => .require fun _ => .pure hb))
      fun body hb => ?_
  split
  · exact node (append (.pure hh) fun _ => bodilessEnd)
  · dsimp only
    split <;> exact node (.pure (forest_append.2 ⟨hh, hb⟩))

theorem classDeclaration : Sound source (Rule.classDeclaration run) := by
  refine .bind (seq ⟨decorators h, .opt .word, .word, className, classTail h, trivial⟩)
    fun children hc => ?_
  split
  · exact node (.pure hc)
  · exact node (.upcoming fun _ => .bind closingWithin.opt fun _ hm =>
      .pure (forest_append.2 ⟨hc, hm⟩))

theorem moduleTail : Sound source (Rule.moduleTail run) :=
  .seq ⟨.field (.either .string nestedName), .opt (.field (block h)), trivial⟩

omit h in
theorem declaring {s : String} [Evident (s ∉ tokenKinds)] : Sound source (Rule.declaring s) :=
  .followedBy .word

theorem typeAlias : Sound source (Rule.typeAlias run) :=
  .node (.ended (.seq ⟨declaring, .field .name, .opt (.field (typeParameters h)), .equals,
    .field (.one (h _)), trivial⟩))

theorem interfaceDeclaration : Sound source (Rule.interfaceDeclaration run) :=
  have extending := .node (.seq ⟨.word, .sepBy1 .mark (.field (namedType h)), trivial⟩)
  .node (.seq ⟨.word, .field .name, .opt (.field (typeParameters h)), .opt extending,
    .field (objectType h), trivial⟩)

theorem enumDeclaration : Sound source (Rule.enumDeclaration run) :=
  have valued := .node (.seq ⟨.field (propertyName h), initializer h, trivial⟩)
  have member := .either valued (.field (propertyName h))
  have body := .node (.seq ⟨.mark, .opt (.seq ⟨.sepBy1 .mark member, .opt .mark, trivial⟩), .mark,
    trivial⟩)
  .node (.modified .word (.seq ⟨.word, .field .identifier, .field body, trivial⟩))

omit h in
theorem importAlias : Sound source Rule.importAlias :=
  .node (.ended (.seq ⟨.word, .identifier, .equals, nestedName, trivial⟩))

theorem ambient (hd : Sound source rule) : Sound source (Rule.ambient run rule) :=
  have member := .ended (.seq ⟨.word, .mark, .name, .mark, .one (h _), trivial⟩)
  .node (.seq ⟨declaring, .firstOf ⟨.seq ⟨.word, block h, trivial⟩, member, hd, trivial⟩, trivial⟩)

theorem declarationWithin {fuel : Nat} : Sound source (Rule.declarationWithin run fuel) := by
  induction fuel with
  | zero => exact .failure
  | succ fuel ih =>
    exact .firstOf ⟨functionDeclaration h, classDeclaration h, enumDeclaration h,
      variableDeclaration h, .node (.seq ⟨declaring, moduleTail h, trivial⟩),
      .node (.seq ⟨declaring, moduleTail h, trivial⟩), typeAlias h, interfaceDeclaration h,
      importAlias, ambient h ih, trivial⟩

theorem declaration : Sound source (Rule.declaration run) := .upcoming fun _ => declarationWithin h

/-! ## Imports and exports -/

omit h

theorem exportName : Sound source Rule.exportName := .either .string .identifier

theorem clauseEntry (he : Sound source rule) [Evident (kind ∉ tokenKinds)] :
    Sound source (Rule.clauseEntry kind rule) := by
  have complete : Sound source (do
      let children ← rule
      let next ← Rule.lookPast
      require (next.head? = some ',' || next.head? = some '\x7d')
      return children) :=
    .bind he fun _ hc => .bind yields_lookPast fun _ _ => .require fun _ => .pure hc
  exact .node (.either complete (.seq ⟨.either .word .word, complete, trivial⟩))

theorem clause (he : Sound source rule) [Evident (kind ∉ tokenKinds)] :
    Sound source (Rule.clause kind rule) :=
  .node (.seq ⟨.mark, .opt (.seq ⟨.sepBy1 .mark he, .opt .mark, trivial⟩), .mark, trivial⟩)

theorem importClause : Sound source Rule.importClause :=
  have entry := .either (.seq ⟨.field exportName, .word, .field .identifier, trivial⟩)
    (.field .identifier)
  have whole := .node (.seq ⟨.mark, .word, .identifier, trivial⟩)
  .node (.firstOf ⟨whole, clause (clauseEntry entry), .seq ⟨.identifier,
    .opt (.seq ⟨.mark, .either whole (clause (clauseEntry entry)), trivial⟩), trivial⟩, trivial⟩)

theorem fromClause : Sound source Rule.fromClause := .seq ⟨.word, .field .string, trivial⟩

theorem exportClause : Sound source Rule.exportClause :=
  clause (clauseEntry (.seq ⟨.field exportName,
    .opt (.seq ⟨.word, .field exportName, trivial⟩), trivial⟩))

include h

theorem importAttribute : Sound source (Rule.importAttribute run) :=
  .node (.seq ⟨.either .word .word, object h, trivial⟩)

theorem importStatement : Sound source (Rule.importStatement run) :=
  have required := .node (.seq ⟨.identifier, .mark, .word, .mark, .field .string, .mark, trivial⟩)
  have tail :=
    .firstOf ⟨.seq ⟨importClause, fromClause, trivial⟩, required, .field .string, trivial⟩
  have typed := .seq ⟨.either .word .word, tail, trivial⟩
  .node (.bind (seq ⟨.word, .either typed tail, trivial⟩) fun _ hc =>
    .bind (opt (continued (importAttribute h))) fun _ ha => .bind semicolon fun _ hs =>
      .pure (forest_append.2 ⟨forest_append.2 ⟨hc, ha⟩, hs⟩))

/-- All ways to write an export: a clause with and without a module, a whole module, a default and a
declaration. -/
theorem exportStatement : Sound source (Rule.exportStatement run) :=
  have whole := .node (.seq ⟨.mark, .word, exportName, trivial⟩)
  have value := .ended (.field (.one (h _)))
  have default := .seq ⟨.word, .either (.field (declaration h)) value, trivial⟩
  .node (.firstOf ⟨.ended (.seq ⟨.word, .seq ⟨.mark, fromClause, trivial⟩, trivial⟩),
    .ended (.seq ⟨.word, .seq ⟨whole, fromClause, trivial⟩, trivial⟩),
    .ended (.seq ⟨.word, .seq ⟨exportClause, fromClause, trivial⟩, trivial⟩),
    .ended (.seq ⟨.word, exportClause, trivial⟩),
    .ended (.seq ⟨.word, .seq ⟨.word, exportClause, fromClause, trivial⟩, trivial⟩),
    .ended (.seq ⟨.word, .seq ⟨.word, exportClause, trivial⟩, trivial⟩),
    .ended (.seq ⟨.word, .seq ⟨.word, .word, .identifier, trivial⟩, trivial⟩),
    .seq ⟨.word, .mark, .ended (.one (h _)), trivial⟩,
    .seq ⟨.word, .word, importAlias, trivial⟩,
    .seq ⟨decorators h, .word, .either default (.field (declaration h)), trivial⟩, trivial⟩)

/-! ## Control flow -/

theorem elseClause : Sound source (Rule.elseClause run) :=
  .node (.seq ⟨.word, statement h, trivial⟩)

theorem eachHeader : Sound source (Rule.eachHeader run) :=
  have left := .firstOf ⟨
    .seq ⟨.field .word, .field (binding h), .opt (initializer h), trivial⟩,
    .seq ⟨.field (.either .word .word), .field (binding h), trivial⟩,
    .field (.firstOf ⟨destructuring h, .one (h _), parenthesized h, trivial⟩), trivial⟩
  .seq ⟨.mark, left, .field (.either .word .word), .field (expressions h), .mark, trivial⟩

omit h in
theorem emptyStatement : Sound source Rule.emptyStatement :=
  .upcoming fun _ => .require fun _ => token

theorem countHeader : Sound source (Rule.countHeader run) :=
  have first := .firstOf ⟨variableDeclaration h, .seq ⟨expressions h, .mark, trivial⟩,
    emptyStatement, trivial⟩
  have test := .either (.seq ⟨expressions h, .mark, trivial⟩) emptyStatement
  .seq ⟨.mark, first, test, .opt (.field (expressions h)), .mark, trivial⟩

theorem forStatement : Sound source (Rule.forStatement run) :=
  .either
    (.node (.seq ⟨.word, .opt .word, eachHeader h, .field (statement h), trivial⟩))
    (.node (.seq ⟨.word, countHeader h, .field (statement h), trivial⟩))

theorem caseBody : Sound source (Rule.caseBody run) :=
  .many (.upcoming fun _ => .require fun _ => statement h)

theorem switchStatement : Sound source (Rule.switchStatement run) :=
  have case := .node (.seq ⟨.word, .field (expressions h), .mark, caseBody h, trivial⟩)
  have default := .node (.seq ⟨.word, .mark, caseBody h, trivial⟩)
  have body := .node (.seq ⟨.mark, .many (.either case default), .mark, trivial⟩)
  .node (.seq ⟨.word, condition h, .field body, trivial⟩)

theorem tryStatement : Sound source (Rule.tryStatement run) :=
  have parameter := .seq ⟨.mark, .field (binding h), .opt (.field (ascription h)), .mark, trivial⟩
  have handler := .node (.seq ⟨.word, .opt parameter, .field (block h), trivial⟩)
  have finalizer := .node (.seq ⟨.word, .field (block h), trivial⟩)
  .node (.seq ⟨.word, .field (block h), .opt (.field handler), .opt (.field finalizer), trivial⟩)

omit h in
theorem jump {s : String} [Evident (kind ∉ tokenKinds)] [Evident (s ∉ tokenKinds)] :
    Sound source (Rule.jump kind s) :=
  .node (.ended (append .word fun _ => .opt (.continued (.field .name))))

theorem returnStatement : Sound source (Rule.returnStatement run) :=
  .node (.bind word fun _ hh => .bind (opt (continued (expressions h))) fun _ hv =>
    .bind semicolon fun _ hs => .pure (forest_append.2 ⟨forest_append.2 ⟨hh, hv⟩, hs⟩))

theorem labeled : Sound source (Rule.labeled run) :=
  .node (.seq ⟨.field .name, .mark, .field (statement h), trivial⟩)

theorem doStatement : Sound source (Rule.doStatement run) :=
  .node (.bind (seq ⟨.word, .field (statement h), .word, condition h, trivial⟩) fun _ hc =>
    .bind (opt semicolon) fun _ hs => .pure (forest_append.2 ⟨hc, hs⟩))

/-- A statement, by the word that it begins with. -/
theorem wordStatement {s : String} : Sound source (Rule.wordStatement run s) := by
  have orExpression {rule : Rule} (hr : Sound source rule) : Sound source
      (Rule.either rule (Rule.either (Rule.labeled run) (Rule.expressionStatement run))) :=
    .either hr (.either (labeled h) (expressionStatement h))
  unfold Rule.wordStatement
  dsimp only
  split
  · exact firstOf ⟨importStatement h, importAlias, expressionStatement h, trivial⟩
  · exact orExpression (exportStatement h)
  · exact node (seq ⟨word, condition h, field (statement h), opt (field (elseClause h)), trivial⟩)
  · exact forStatement h
  · exact node (seq ⟨word, condition h, field (statement h), trivial⟩)
  · exact doStatement h
  · exact switchStatement h
  · exact tryStatement h
  · exact node (seq ⟨word, condition h, field (statement h), trivial⟩)
  · exact jump
  · exact jump
  · exact node (ended word)
  · exact returnStatement h
  · exact node (ended (seq ⟨word, expressions h, trivial⟩))
  · exact variableDeclaration h
  · exact either (enumDeclaration h) (variableDeclaration h)
  · exact enumDeclaration h
  · exact interfaceDeclaration h
  · exact classDeclaration h
  · exact either (classDeclaration h) (expressionStatement h)
  · exact orExpression (variableDeclaration h)
  · exact either (functionDeclaration h) (expressionStatement h)
  · exact orExpression (functionDeclaration h)
  · exact orExpression (ambient h (declaration h))
  · exact orExpression (typeAlias h)
  · exact orExpression (node (seq ⟨declaring, moduleTail h, trivial⟩))
  · exact either (labeled h) (expressionStatement h)

theorem statementRule : SoundTree source (Rule.statementRule run) := by
  refine .only (.upcoming fun _ => ?_)
  split
  · exact either (block h) (expressionStatement h)
  · exact emptyStatement
  · exact firstOf ⟨exportStatement h, classDeclaration h, expressionStatement h, trivial⟩
  · dsimp only
    split
    · exact expressionStatement h
    · exact wordStatement h

/-! ## Blocks and programs -/

omit h in
theorem markupComment : Sound source Rule.markupComment :=
  .upcoming fun _ => .require fun _ => token

theorem statements : Sound source (Rule.statements run) :=
  .many (.either markupComment (statement h))

theorem blockRule {inExpression : Bool} : SoundTree source (Rule.blockRule run inExpression) :=
  .tree (.seq ⟨.mark, statements h, .closing, trivial⟩)

omit h in
theorem shellLine : Sound source Rule.shellLine := .upcoming fun _ => .require fun _ => token

end ElementWrapper.Source.Sound
