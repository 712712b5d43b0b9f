import ElementWrapper.Proofs.Printer.Pieces

/-!
The text of a module is the text of its pieces, and the same pieces without their comments are the
text of the module with no comments anywhere.
-/

namespace ElementWrapper

namespace Script

/-- The mode in which a text is read, but for the dollar that may begin a substitution. -/
def Mode.rest : Mode → Mode
  | template false _ => template false false
  | mode => mode

/-- Where in a script a text has been read to: the mode and the brackets that are open. -/
def State.place (s : State) : Mode × List Bracket := (s.mode.rest, s.frames.map (·.bracket))

/-- A text that is read from between tokens to between tokens, whatever stands before it, and closes
just the brackets that it opens. -/
def IsMark (text : Text) : Prop :=
  ∀ last frame outer groups, (run ⟨.code, last, frame :: outer, groups⟩ text).map State.place =
    some (.code, frame.bracket :: outer.map (·.bracket))

theorem Reads.isMark {text : Text} {commas : Nat} {closed : List Nat}
    (h : ∀ start, Reads text start commas closed) : IsMark text := by
  intro last frame outer groups
  obtain ⟨last', done⟩ := (h last).inside frame outer groups
  rw [done]
  rfl

end Script

open Script (IsMark)

/-! ## A grammar of pieces -/

/-- The pieces are the text of a node where it begins a line, after its comments. -/
def Layout.Begins (layout : Layout) (level : Int) (node : Node) (pieces : List Piece) : Prop :=
  layout.statementBody level node = .ok (layout.full pieces) ∨
    layout.entry level node = .ok (layout.full pieces)

/-- How the pieces of expressions and statements are put together. Pieces that begin with a line are
put only where a line has ended, which the flag says. -/
inductive Printed (layout : Layout) : Bool → List Piece → Prop
  | nil {fresh : Bool} : Printed layout fresh []
  | mark {text : Text} : IsMark text → Printed layout false [.code text]
  | margin (level : Int) : Printed layout false [.code (layout.margin level)]
  | kept (text : Text) : Printed layout false [.kept text]
  | append {fresh : Bool} {pieces more : List Piece} : Printed layout fresh pieces →
    Printed layout false more → Printed layout fresh (pieces ++ more)
  | round {pieces : List Piece} : Printed layout false pieces →
    Printed layout false ([.code "("] ++ pieces ++ [.code ")"])
  | square {pieces : List Piece} : Printed layout false pieces →
    Printed layout false ([.code "["] ++ pieces ++ [.code "]"])
  | brace {pieces : List Piece} : Printed layout false pieces →
    Printed layout false ([.code Layout.openBrace] ++ pieces ++ [.code Layout.closeBrace])
  | template {quasis : List Node} {substitutions : List (List Piece)} :
    (∀ pieces ∈ substitutions, Printed layout false pieces) →
    Printed layout false ([.code "`"] ++ Piece.woven quasis substitutions ++ [.code "`"])
  | feed {pieces : List Piece} : Printed layout true pieces →
    Printed layout false ([.feed] ++ pieces)
  | line {level : Int} {node : Node} {pieces : List Piece} : layout.Begins level node pieces →
    Printed layout false pieces → Printed layout true ([.line level node] ++ pieces)

namespace Printed

variable {layout : Layout}

theorem sign {text : Text} (h : ∀ start, Script.Reads text start 0 []) :
    Printed layout false [.code text] :=
  mark (Script.Reads.isMark h)

theorem joined {separator : List Piece} (between : Printed layout false separator)
    {items : List (List Piece)} (h : ∀ pieces ∈ items, Printed layout false pieces) :
    Printed layout false (Piece.joined separator items) := by
  induction items with
  | nil => exact nil
  | cons pieces rest ih =>
    obtain ⟨first, others⟩ := List.forall_mem_cons.1 h
    cases rest with
    | nil => exact first
    | cons next rest => exact (first.append between).append (ih others)

theorem comma : Printed layout false [.code ", "] := mark fun _ _ _ _ => rfl

/-- Lines with a separator between them begin where a line has ended, if the separator ends one. -/
theorem lines {level : Int} {separator : List Piece} {items : List (Node × List Piece)}
    (between : Printed layout false separator)
    (h : ∀ item ∈ items, layout.Begins level item.1 item.2 ∧ Printed layout false item.2) :
    Printed layout true (Piece.lines level separator items) := by
  refine append ?_ (feed nil)
  induction items with
  | nil => exact nil
  | cons item rest ih =>
    obtain ⟨first, others⟩ := List.forall_mem_cons.1 h
    have own := line first.1 first.2
    cases rest with
    | nil => exact own
    | cons next rest =>
      have later := own.append (between.append (feed (ih others)))
      simpa [Piece.joined] using later

theorem renamed (name other : Text) : Printed layout false (Piece.renamed name other) := by
  rw [Piece.renamed]
  split
  · exact kept other
  · exact ((kept name).append (mark fun _ _ _ _ => rfl)).append (kept other)

theorem braced {items : List (List Piece)} (h : ∀ pieces ∈ items, Printed layout false pieces) :
    Printed layout false (Piece.braced items) := by
  have blank : Printed layout false [.code " "] := mark fun _ _ _ _ => rfl
  exact brace ((blank.append (joined comma h)).append blank)

/-- The parts of an import clause are names and words of the printer, however many there are. -/
theorem importParts (specifiers : List Node) :
    ∀ pieces ∈ Piece.importParts specifiers, Printed layout false pieces := by
  have star : Printed layout false [.code "* as "] := mark fun _ _ _ _ => rfl
  have names : ∀ pieces ∈ Piece.importNames specifiers, Printed layout false pieces := by
    intro pieces mem
    obtain ⟨specifier, -, named⟩ := List.mem_filterMap.1 mem
    split at named
    · obtain rfl := Option.some.inj named
      exact renamed _ _
    · cases named
  intro pieces mem
  rw [Piece.importParts, Piece.importHeads, List.mem_append, List.mem_append, List.mem_reverse]
    at mem
  obtain (mem | mem) | mem := mem
  · obtain ⟨specifier, -, named⟩ := List.mem_filterMap.1 mem
    split at named
    · obtain rfl := Option.some.inj named
      exact kept _
    · cases named
  · obtain ⟨specifier, -, named⟩ := List.mem_filterMap.1 mem
    split at named
    · obtain rfl := Option.some.inj named
      exact star.append (kept _)
    · cases named
  · split at mem
    · cases mem
    · obtain rfl := List.mem_singleton.1 mem
      exact braced names

theorem importClause (specifiers : List Node) :
    Printed layout false (Piece.importClause specifiers) := by
  have start : Printed layout false [.code "import "] := mark fun _ _ _ _ => rfl
  rw [Piece.importClause]
  split
  · exact start
  · exact (start.append (joined comma (importParts specifiers))).append
      (mark fun _ _ _ _ => rfl)

theorem exportClause (specifiers : List Node) :
    Printed layout false (Piece.exportClause specifiers) := by
  rw [Piece.exportClause]
  split
  · exact brace nil
  · refine braced (List.forall_mem_map.2 fun specifier _ => ?_)
    split
    · exact renamed _ _
    · exact nil

end Printed

/-! ## The text of a node and of the node without comments -/

/-- If the first text is printed, it is the text of the pieces, and the second one is printed as the
text of the pieces without the comments. -/
def Layout.Splits (layout : Layout) (commented uncommented : Except Unprintable Text)
    (pieces : List Piece) : Prop :=
  ∀ text, commented = .ok text →
    text = layout.full pieces ∧ uncommented = .ok (layout.bare pieces) ∧ Printed layout false pieces

namespace Layout.Splits

variable {layout : Layout} {level : Int}

theorem error {e : Unprintable} {other : Except Unprintable Text} {pieces : List Piece} :
    layout.Splits (.error e) other pieces := fun _ => nofun

theorem single {piece : Piece} (h : Printed layout false [piece])
    {text : Text} (full : text = layout.full [piece]) (bare : text = layout.bare [piece]) :
    layout.Splits (.ok text) (.ok text) [piece] := by
  rintro _ ⟨⟩
  exact ⟨full, by rw [← bare], h⟩

/-- If each node of a list splits, then so do all of them, with one list of pieces for each. -/
theorem of_mapM {f : Node → Except Unprintable Text} {piecesOf : Node → List Piece}
    {nodes : List Node} {texts : List Text}
    (h : ∀ node ∈ nodes, layout.Splits (f node) (f node.uncommented) (piecesOf node))
    (printed : nodes.mapM f = .ok texts) :
    texts = (nodes.map piecesOf).map layout.full ∧
      (nodes.map Node.uncommented).mapM f = .ok ((nodes.map piecesOf).map layout.bare) ∧
      ∀ pieces ∈ nodes.map piecesOf, Printed layout false pieces := by
  obtain ⟨rfl, each⟩ := Except.map_of_mapM (g := fun node => layout.full (piecesOf node))
    (fun node mem text ht => (h node mem text ht).1) printed
  rw [List.map_map, List.map_map, List.mapM_map]
  exact ⟨rfl, Except.mapM_ok fun node mem => (h node mem _ (each node mem)).2.1,
    List.forall_mem_map.2 fun node mem => (h node mem _ (each node mem)).2.2⟩

/-- Nodes in lines of their own, after their comments. -/
theorem of_lines {f : Node → Except Unprintable Text} {piecesOf : Node → List Piece}
    {nodes : List Node} {texts : List Text}
    (h : ∀ node ∈ nodes, layout.Splits (f node) (f node.uncommented) (piecesOf node))
    (printed : (nodes.mapM fun node => layout.commented level node.comments <$> f node) =
      .ok texts) :
    texts = (nodes.map fun node => layout.commentLines level node.comments ++
        layout.margin level ++ layout.full (piecesOf node)) ∧
      ((nodes.map Node.uncommented).mapM fun node =>
        layout.commented level node.comments <$> f node) =
          .ok (nodes.map fun node => layout.margin level ++ layout.bare (piecesOf node)) ∧
      ∀ node ∈ nodes, f node = .ok (layout.full (piecesOf node)) ∧
        Printed layout false (piecesOf node) := by
  have line : ∀ node ∈ nodes, ∀ text, layout.commented level node.comments <$> f node = .ok text →
      f node = .ok (layout.full (piecesOf node)) ∧ text = layout.commentLines level node.comments ++
        layout.margin level ++ layout.full (piecesOf node) := by
    intro node mem text ht
    obtain ⟨code, hc, rfl⟩ := Except.map_eq_ok.1 ht
    obtain ⟨rfl, -⟩ := h node mem code hc
    exact ⟨hc, commented_eq ..⟩
  obtain ⟨rfl, each⟩ :=
    Except.map_of_mapM (fun node mem text ht => (line node mem text ht).2) printed
  have own : ∀ node ∈ nodes, f node = .ok (layout.full (piecesOf node)) :=
    fun node mem => (line node mem _ (each node mem)).1
  refine ⟨rfl, ?_, fun node mem => ⟨own node mem, (h node mem _ (own node mem)).2.2⟩⟩
  rw [List.mapM_map]
  refine Except.mapM_ok fun node mem => ?_
  rw [Function.comp_apply, (h node mem _ (own node mem)).2.1, Node.comments_uncommented]
  rfl

/-- Nodes in braces, each on a line of its own. -/
theorem enclosed {f : Node → Except Unprintable Text} {piecesOf : Node → List Piece}
    {nodes : List Node} {separator : List Piece} {mark : Text}
    (h : ∀ node ∈ nodes, layout.Splits (f node) (f node.uncommented) (piecesOf node))
    (begins : ∀ node pieces, f node = .ok (layout.full pieces) →
      layout.Begins (level + 1) node pieces)
    (between : Printed layout false separator)
    (spelled : ∀ write, layout.text write separator = mark) :
    layout.Splits
      (layout.enclose level mark <$>
        nodes.mapM fun node => layout.commented (level + 1) node.comments <$> f node)
      (layout.enclose level mark <$> (nodes.map Node.uncommented).mapM fun node =>
        layout.commented (level + 1) node.comments <$> f node)
      (Piece.enclosed layout level separator (nodes.map fun node => (node, piecesOf node))) := by
  intro text printed
  obtain ⟨texts, ht, rfl⟩ := Except.map_eq_ok.1 printed
  obtain ⟨rfl, bare, each⟩ := of_lines h ht
  refine ⟨?_, ?_, ?_⟩
  · rw [full, text_enclosed, spelled, List.map_map]
    rfl
  · rw [bare, Layout.bare, text_enclosed, spelled, List.map_map]
    rfl
  · rw [Piece.enclosed]
    split
    · exact .brace .nil
    · refine .brace (.feed (.append (.lines between ?_) (.margin level)))
      exact List.forall_mem_map.2 fun node mem =>
        ⟨begins node _ (each node mem).1, (each node mem).2⟩

end Layout.Splits

/-! ## Expressions -/

section

open Layout (Splits)

variable {layout : Layout} {level : Int} {location : Option Location} {comments : List Comment}

/-- An expression has the same pieces without comments. -/
def ExpressionSplits (layout : Layout) (node : Node) : Prop :=
  ∀ level, layout.Splits (layout.expression level node)
    (layout.expression level node.uncommented) (node.pieces layout level)

/-- An entry has the same pieces without comments. -/
def EntrySplits (layout : Layout) (node : Node) : Prop :=
  ∀ level, layout.Splits (layout.entry level node)
    (layout.entry level node.uncommented) (node.pieces layout level)

/-- A template splits into its pieces of text, which are kept, and the substitutions between
them. -/
theorem splits_template {quasis substitutions : List Node}
    (h : ∀ node ∈ substitutions, ExpressionSplits layout node) :
    ExpressionSplits layout (.mk location comments (.template quasis substitutions)) := by
  intro level text printed
  simp only [Layout.expression, Layout.expressions_eq, Except.bind_eq_ok, Except.pure_eq_ok]
    at printed
  obtain ⟨texts, hts, rfl⟩ := printed
  obtain ⟨rfl, bare, each⟩ :=
    Splits.of_mapM (fun node mem => h node (List.mem_of_mem_take mem) level) hts
  have pieces : (Node.mk location comments (.template quasis substitutions)).pieces layout level =
      [.code "`"] ++ Piece.woven quasis
        ((substitutions.take quasis.length).map (·.pieces layout level)) ++ [.code "`"] := by
    rw [Node.pieces_mk, List.map_take, Layout.woven_take]
    simp only [Form.map, Form.pieces, List.map_map, Function.comp_def, List.map_id']
  rw [pieces]
  refine ⟨by simp [Layout.text_woven], ?_, .template each⟩
  simp only [Node.uncommented_mk, Form.map, Layout.expression, Layout.expressions_eq,
    List.length_map, ← List.map_take, bare]
  simp [Layout.text_woven, Layout.interleave_uncommented]

/-- An access splits into its target and its name, in brackets if it is computed. -/
theorem splits_member {target name : Node} {computed : Bool}
    (ht : ExpressionSplits layout target) (hn : ExpressionSplits layout name) :
    ExpressionSplits layout (.mk location comments (.member target name computed)) := by
  intro level text printed
  simp only [Layout.expression, Except.bind_eq_ok, Except.pure_eq_ok] at printed
  obtain ⟨before, hb, after, ha, rfl⟩ := printed
  obtain ⟨rfl, bareTarget, target'⟩ := ht level before hb
  obtain ⟨rfl, bareName, name'⟩ := hn level after ha
  simp only [Node.uncommented_mk, Node.pieces_mk, Form.map, Layout.expression, bareTarget, bareName]
  cases computed with
  | true => exact ⟨by simp [Form.pieces], by simp [Form.pieces], target'.append name'.square⟩
  | false =>
    exact ⟨by simp [Form.pieces], by simp [Form.pieces],
      (target'.append (.mark fun _ _ _ _ => rfl)).append name'⟩

/-- A call splits into its callee and the arguments between round brackets. -/
theorem splits_call {callee : Node} {arguments : List Node}
    (hc : ExpressionSplits layout callee)
    (ha : ∀ argument ∈ arguments, ExpressionSplits layout argument) :
    ExpressionSplits layout (.mk location comments (.call callee arguments)) := by
  intro level text printed
  simp only [Layout.expression, Layout.expressions_eq, List.take_length, Except.bind_eq_ok,
    Except.pure_eq_ok] at printed
  obtain ⟨texts, hts, before, hb, rfl⟩ := printed
  obtain ⟨rfl, bareCallee, callee'⟩ := hc level before hb
  obtain ⟨rfl, bareArguments, arguments'⟩ :=
    Splits.of_mapM (fun argument mem => ha argument mem level) hts
  have pieces : (Node.mk location comments (.call callee arguments)).pieces layout level =
      callee.pieces layout level ++ ([.code "("] ++
        Piece.joined [.code ", "] (arguments.map (·.pieces layout level)) ++ [.code ")"]) := by
    rw [Node.pieces_mk]
    simp only [Form.map, Form.pieces, List.map_map, Function.comp_def]
  rw [pieces]
  refine ⟨by simp [Layout.text_joined], ?_, callee'.append (Printed.joined .comma arguments').round⟩
  simp only [Node.uncommented_mk, Form.map, Layout.expression, Layout.expressions_eq,
    List.take_length, bareCallee, bareArguments]
  simp [Layout.text_joined]

/-- An assignment splits into its two sides with the operator between them. -/
theorem splits_assignment {left right : Node} {operator : Text}
    (hl : ExpressionSplits layout left) (hr : ExpressionSplits layout right) :
    ExpressionSplits layout (.mk location comments (.assignment left right operator)) := by
  intro level text printed
  simp only [Layout.expression, Except.bind_eq_ok, Except.pure_eq_ok] at printed
  obtain ⟨before, hb, after, ha, rfl⟩ := printed
  obtain ⟨rfl, bareLeft, left'⟩ := hl level before hb
  obtain ⟨rfl, bareRight, right'⟩ := hr level after ha
  have blank : Printed layout false [.code " "] := .mark fun _ _ _ _ => rfl
  simp only [Node.uncommented_mk, Node.pieces_mk, Form.map, Layout.expression, bareLeft, bareRight]
  exact ⟨by simp [Form.pieces], by simp [Form.pieces],
    (left'.append ((blank.append (.kept operator)).append blank)).append right'⟩

/-- An object splits into its entries, each of which begins a line. -/
theorem splits_object {entries : List Node} (h : ∀ entry ∈ entries, EntrySplits layout entry) :
    ExpressionSplits layout (.mk location comments (.object entries)) := by
  intro level
  have comma : Printed layout false [.code ","] := .mark fun _ _ _ _ => rfl
  have spelled (write) : layout.text write [.code ","] = "," := rfl
  have enclosed := Splits.enclosed (fun entry mem => h entry mem (level + 1)) (fun _ _ => .inr)
    comma spelled
  rw [← Layout.entries_eq, ← Layout.entries_eq] at enclosed
  rw [Node.uncommented_mk, Node.pieces_mk]
  simp only [Form.map, Form.pieces, List.map_map, Function.comp_def]
  exact enclosed

/-- An entry splits into its key and its value. What its key is printed as depends on whether it is
computed and on whether it is a plain name, and not on comments. -/
theorem splits_property {key value : Node} {computed : Bool} (hk : ExpressionSplits layout key)
    (hv : ExpressionSplits layout value) :
    EntrySplits layout (.mk location comments (.property key value computed)) := by
  have named (level : Int) : layout.Splits (layout.key level computed key)
      (layout.key level computed key.uncommented)
      (key.keyPieces computed (key.pieces layout level)) := by
    cases computed with
    | true =>
      intro text printed
      obtain ⟨name, hn, rfl⟩ := Except.map_eq_ok.1 printed
      obtain ⟨rfl, bare, key'⟩ := hk level name hn
      refine ⟨by simp [Layout.bracketed, Node.keyPieces], ?_, key'.square⟩
      simp only [Layout.key, bare]
      simp [Layout.bracketed, Node.keyPieces]
    | false =>
      simp only [Layout.key, Node.keyPieces, Node.stringValue?_uncommented]
      cases key.stringValue? with
      | none => exact hk level
      | some name =>
        dsimp only
        split
        · exact .single (.sign (Script.reads_isPlainName ‹_›)) (by simp) (by simp)
        · exact hk level
  intro level text printed
  simp only [Layout.entry, Node.form, Except.bind_eq_ok, Except.pure_eq_ok] at printed
  obtain ⟨before, hb, after, ha, rfl⟩ := printed
  obtain ⟨rfl, bareKey, key'⟩ := named level before hb
  obtain ⟨rfl, bareValue, value'⟩ := hv level after ha
  simp only [Node.uncommented_mk, Node.pieces_mk, Form.map, Layout.entry, Node.form, bareKey,
    bareValue]
  exact ⟨by simp [Form.pieces], by simp [Form.pieces],
    (key'.append (.mark fun _ _ _ _ => rfl)).append value'⟩

/-- Every expression and every entry has the same pieces without comments. -/
theorem node_splits (node : Node) : ExpressionSplits layout node ∧ EntrySplits layout node := by
  induction node using Node.induction with
  | step location comments form ih =>
    -- Only an entry is printed in another way than an expression.
    have alike (plain : ∀ key value computed, form ≠ .property key value computed)
        (h : ExpressionSplits layout (.mk location comments form)) :
        ExpressionSplits layout (.mk location comments form) ∧
          EntrySplits layout (.mk location comments form) := by
      refine ⟨h, fun level => ?_⟩
      have own := h level
      rw [Node.uncommented_mk] at own ⊢
      cases form <;> first | exact own | exact absurd rfl (plain _ _ _)
    have leaf (plain : ∀ key value computed, form ≠ .property key value computed)
        (h : ∀ level, layout.Splits (layout.expression level (.mk location comments form))
          (layout.expression level (.mk location [] (form.map Node.uncommented)))
          ((form.map fun node => (node, node.pieces layout)).pieces layout level)) :=
      alike plain fun level => by
        rw [Node.uncommented_mk, Node.pieces_mk]
        exact h level
    cases form with
    | identifier name => exact leaf nofun fun _ => .single (.kept name) (by simp) (by simp)
    | string value spelling =>
      cases spelling with
      | none =>
        have quoted : Printed layout false [.code (Literal.quote value)] :=
          .sign (Script.reads_quote value)
        exact leaf nofun fun _ => .single quoted (by simp) (by simp)
      | some spelling => exact leaf nofun fun _ => .single (.kept spelling) (by simp) (by simp)
    | number spelling => exact leaf nofun fun _ => .single (.kept spelling) (by simp) (by simp)
    | boolean value =>
      refine leaf nofun fun _ => .single (.mark ?_) (by simp) (by simp)
      cases value <;> exact fun _ _ _ _ => rfl
    | null => exact leaf nofun fun _ => .single (.mark fun _ _ _ _ => rfl) (by simp) (by simp)
    | raw kind text operands => exact leaf nofun fun _ => .single (.kept text) (by simp) (by simp)
    | template quasis substitutions =>
      exact alike nofun (splits_template fun node mem =>
        (ih node (List.mem_append_right quasis mem)).1)
    | property key value computed =>
      obtain ⟨hk, others⟩ := List.forall_mem_cons.1 ih
      have hv := List.forall_mem_singleton.1 others
      exact ⟨fun _ => .error, splits_property hk.1 hv.1⟩
    | object entries => exact alike nofun (splits_object fun entry mem => (ih entry mem).2)
    | member target name computed =>
      obtain ⟨ht, others⟩ := List.forall_mem_cons.1 ih
      exact alike nofun (splits_member ht.1 (List.forall_mem_singleton.1 others).1)
    | call callee arguments =>
      obtain ⟨hc, ha⟩ := List.forall_mem_cons.1 ih
      exact alike nofun (splits_call hc.1 fun argument mem => (ha argument mem).1)
    | assignment left right operator =>
      obtain ⟨hl, others⟩ := List.forall_mem_cons.1 ih
      exact alike nofun (splits_assignment hl.1 (List.forall_mem_singleton.1 others).1)
    | _ => exact alike nofun fun _ => .error

/-! ## Statements -/

/-- A statement has the same pieces without comments. -/
def StatementSplits (layout : Layout) (node : Node) : Prop :=
  ∀ level, layout.Splits (layout.statementBody level node)
    (layout.statementBody level node.uncommented) (node.statementPieces layout level)

/-- A variable splits into its name and its value, if it has one. -/
theorem declarator_splits (node : Node) : layout.Splits (layout.declarator level node)
    (layout.declarator level node.uncommented) (node.declaratorPieces layout level) := by
  obtain ⟨location, comments, form⟩ := node
  have own := (@node_splits layout (.mk location comments form)).1 level
  cases form with
  | declarator id init =>
    have first := (@node_splits layout id).1 level
    rw [Node.uncommented_mk]
    cases init with
    | none => exact first
    | some init =>
      intro text printed
      simp only [Layout.declarator, Node.form, Except.bind_eq_ok, Except.pure_eq_ok] at printed
      obtain ⟨before, hb, after, ha, rfl⟩ := printed
      obtain ⟨rfl, bareId, id'⟩ := first before hb
      obtain ⟨rfl, bareInit, init'⟩ := (node_splits init).1 level after ha
      simp only [Form.map, Option.map_some, Layout.declarator, Node.form, bareId, bareInit]
      exact ⟨by simp [Node.declaratorPieces, Node.form], by simp [Node.declaratorPieces, Node.form],
        (id'.append (.mark fun _ _ _ _ => rfl)).append init'⟩
  | _ =>
    rw [Node.uncommented_mk] at own ⊢
    exact own

theorem Printed.semicolon : Printed layout false [.code ";"] := .mark fun _ _ _ _ => rfl

/-- An import splits into its clause and its source; one without specifiers has the source alone. -/
theorem splits_import {specifiers : List Node} {source : Node} {typeOnly : Bool} :
    StatementSplits layout
      (.mk location comments (.importDeclaration specifiers source typeOnly)) := by
  intro level text printed
  simp only [Layout.statementBody, Except.bind_eq_ok, Except.pure_eq_ok] at printed
  obtain ⟨code, hc, rfl⟩ := printed
  obtain ⟨rfl, bare, source'⟩ := (node_splits source).1 0 code hc
  rw [Node.uncommented_mk, Node.statementPieces_mk]
  simp only [Form.map, Form.statementPieces, Layout.statementBody, List.map_map, Function.comp_def,
    List.map_id', bare, Layout.importDeclaration_uncommented]
  refine ⟨?_, ?_, ((Printed.importClause specifiers).append source').append .semicolon⟩
  · simp [← layout.text_importClause layout.commentLines]
  · simp [← layout.text_importClause fun _ _ => []]

/-- An export of names splits into the declaration that it exports, or else into its clause with or
without a source. -/
theorem splits_exportNamed {declaration : Option Node} {specifiers : List Node}
    {source : Option Node} {typeOnly : Bool}
    (h : ∀ node ∈ declaration, StatementSplits layout node) :
    StatementSplits layout
      (.mk location comments (.exportNamed declaration specifiers source typeOnly)) := by
  have «export» : Printed layout false [.code "export "] := .mark fun _ _ _ _ => rfl
  intro level text printed
  rw [Node.uncommented_mk, Node.statementPieces_mk]
  cases declaration with
  | some declaration =>
    simp only [Layout.statementBody, Except.bind_eq_ok, Except.pure_eq_ok] at printed
    obtain ⟨code, hc, rfl⟩ := printed
    obtain ⟨rfl, bare, declaration'⟩ := h declaration rfl level code hc
    simp only [Form.map, Option.map_some, Form.statementPieces, Layout.statementBody, bare]
    exact ⟨by simp, by simp, «export».append declaration'⟩
  | none =>
    have clause : Printed layout false (Piece.exportClause specifiers) := .exportClause specifiers
    cases source with
    | none =>
      obtain rfl := Except.ok.inj printed
      simp only [Form.map, Option.map_none, Form.statementPieces, Layout.statementBody,
        List.map_map, Function.comp_def, List.map_id', Layout.exportClause_uncommented]
      exact ⟨by simp [Layout.text_exportClause], by simp [Layout.text_exportClause],
        («export».append clause).append .semicolon⟩
    | some source =>
      simp only [Layout.statementBody, Except.bind_eq_ok, Except.pure_eq_ok] at printed
      obtain ⟨code, hc, rfl⟩ := printed
      obtain ⟨rfl, bare, source'⟩ := (node_splits source).1 level code hc
      simp only [Form.map, Option.map_none, Option.map_some, Form.statementPieces,
        Layout.statementBody, List.map_map, Function.comp_def, List.map_id',
        Layout.exportClause_uncommented, bare]
      exact ⟨by simp [Layout.text_exportClause], by simp [Layout.text_exportClause],
        (((«export».append clause).append (.mark fun _ _ _ _ => rfl)).append source').append
          .semicolon⟩

/-- A declaration of variables splits into these with commas between them. -/
theorem splits_variables {kind : Text} {declarations : List Node} :
    StatementSplits layout (.mk location comments (.variables kind declarations)) := by
  intro level text printed
  simp only [Layout.statementBody, Except.bind_eq_ok, Except.pure_eq_ok] at printed
  obtain ⟨texts, hts, rfl⟩ := printed
  obtain ⟨rfl, bare, each⟩ := Splits.of_mapM (fun node _ => declarator_splits node) hts
  rw [Node.uncommented_mk, Node.statementPieces_mk]
  simp only [Form.map, Form.statementPieces, Layout.statementBody, List.map_map, Function.comp_def,
    bare]
  refine ⟨by simp [Layout.text_joined, Function.comp_def],
    by simp [Layout.text_joined, Function.comp_def], ?_⟩
  exact (((Printed.kept kind).append (.mark fun _ _ _ _ => rfl)).append
    (.joined .comma each)).append .semicolon

/-- A block splits into its statements, each of which begins a line. -/
theorem splits_block {body : List Node} (h : ∀ node ∈ body, StatementSplits layout node) :
    StatementSplits layout (.mk location comments (.block body)) := by
  intro level
  have spelled (write) : layout.text write [] = [] := rfl
  have enclosed := Splits.enclosed (fun node mem => h node mem (level + 1)) (fun _ _ => .inl) .nil
    spelled
  rw [← Layout.statements_eq, ← Layout.statements_eq,
    ← layout.statementBody_block level location comments,
    ← layout.statementBody_block level location []] at enclosed
  rw [Node.uncommented_mk, Node.statementPieces_mk]
  simp only [Form.map, Form.statementPieces, List.map_map, Function.comp_def]
  exact enclosed

/-- An expression between a word of the printer and a semicolon. -/
theorem Layout.Splits.ended {code other : Except Unprintable Text} {pieces : List Piece}
    (h : layout.Splits code other pieces) {word : Text}
    (begins : Printed layout false [.code word]) :
    layout.Splits (do return word ++ (← code) ++ ";") (do return word ++ (← other) ++ ";")
      ([.code word] ++ pieces ++ [.code ";"]) := by
  intro text printed
  simp only [Except.bind_eq_ok, Except.pure_eq_ok] at printed
  obtain ⟨code, hc, rfl⟩ := printed
  obtain ⟨rfl, bare, pieces'⟩ := h code hc
  exact ⟨by simp, by simp [bare], (begins.append pieces').append .semicolon⟩

/-- Every statement has the same pieces without comments. -/
theorem statement_splits (node : Node) : StatementSplits layout node := by
  induction node using Node.induction with
  | step location comments form ih =>
    cases form with
    | importDeclaration specifiers source typeOnly => exact splits_import
    | exportNamed declaration specifiers source typeOnly =>
      refine splits_exportNamed fun node mem => ih node ?_
      exact List.mem_append_left _ (List.mem_append_left _ (Option.mem_toList.2 mem))
    | «variables» kind declarations => exact splits_variables
    | block body => exact splits_block ih
    | exportDefault declaration =>
      intro level
      rw [Node.uncommented_mk, Node.statementPieces_mk]
      exact ((node_splits declaration).1 level).ended (.mark fun _ _ _ _ => rfl)
    | expressionStatement expression =>
      intro level text printed
      rw [Node.uncommented_mk, Node.statementPieces_mk]
      simp only [Layout.statementBody, Except.bind_eq_ok, Except.pure_eq_ok] at printed
      obtain ⟨code, hc, rfl⟩ := printed
      obtain ⟨rfl, bare, pieces'⟩ := (node_splits expression).1 level code hc
      simp only [Form.map, Form.statementPieces, Layout.statementBody, bare]
      exact ⟨by simp, by simp, pieces'.append .semicolon⟩
    | returnStatement argument =>
      intro level
      rw [Node.uncommented_mk, Node.statementPieces_mk]
      cases argument with
      | none => exact .single (.mark fun _ _ _ _ => rfl) (by simp) (by simp)
      | some argument =>
        exact ((node_splits argument).1 level).ended (.mark fun _ _ _ _ => rfl)
    | raw kind text operands =>
      intro level
      rw [Node.uncommented_mk, Node.statementPieces_mk]
      exact .single (.kept text) (by simp) (by simp)
    | _ => exact fun _ => .error

/-- **A module is printed piece by piece, and the same pieces without comments are the text of the
module with no comments anywhere.** -/
theorem program_splits {program : Node} {text : Text}
    (printed : layout.program program = .ok text) :
    text = layout.full (program.modulePieces layout) ∧
      layout.program program.uncommented = .ok (layout.bare (program.modulePieces layout)) ∧
      Printed layout true (program.modulePieces layout) := by
  simp only [Layout.program, Layout.statements_eq, Except.bind_eq_ok] at printed
  obtain ⟨texts, hts, printed⟩ := printed
  obtain ⟨rfl, bare, each⟩ := Splits.of_lines (fun node _ => statement_splits node 0) hts
  simp only [Layout.program, Layout.statements_eq, Node.statements_uncommented, bare]
  have pieces (write : Int → List Comment → Text) (first : Node) (rest : List Node) :
      layout.text write (Piece.lines 0 [] ((first :: rest).map fun statement =>
        (statement, statement.statementPieces layout 0))) =
      Text.join "\n" ((first :: rest).map fun statement => write 0 statement.comments ++
        layout.margin 0 ++ layout.text write (statement.statementPieces layout 0)) ++ "\n" := by
    rw [Layout.text_lines, List.map_map]
    rfl
  have lines : Printed layout true (Piece.lines 0 [] (program.statements.map fun statement =>
      (statement, statement.statementPieces layout 0))) :=
    .lines .nil (List.forall_mem_map.2 fun statement mem =>
      ⟨.inl (each statement mem).1, (each statement mem).2⟩)
  rw [Node.modulePieces]
  generalize program.statements = statements at printed lines ⊢
  cases statements with
  | nil =>
    obtain rfl := Except.ok.inj printed
    exact ⟨rfl, rfl, .nil⟩
  | cons first rest =>
    obtain rfl := Except.ok.inj printed
    rw [if_neg (by simp), Layout.full, Layout.bare, pieces, pieces]
    exact ⟨rfl, rfl, lines⟩

end

end ElementWrapper
