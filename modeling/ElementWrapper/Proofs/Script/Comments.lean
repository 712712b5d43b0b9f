import ElementWrapper.Proofs.Printer.Splitting

/-!
Comments in the text of a module. They stand on lines of their own, right ahead of the lines of the
statements and entries that they belong to (`Printed.linesBegin`), and a script reads past them: if
the texts that are kept in a module are whole where they stand, every piece is read from the state
in which it is read when there are no comments. That a line never begins inside a token is shown
along the grammar of pieces (`carries_of_printed`).
-/

namespace ElementWrapper

/-! ## Comments as they are written -/

/-- A block comment that is not ended inside, or a line comment that stays in its line. -/
def Comment.IsContained (comment : Comment) : Prop :=
  if comment.block then ¬ ("*/" : Text) <:+: comment.value
  else ∀ c ∈ comment.value, Literal.endsLine c = false

instance (comment : Comment) : Decidable comment.IsContained := by
  unfold Comment.IsContained
  infer_instance

namespace Script

/-- A comment without an end inside ends where it is closed. -/
theorem afterBlock?_of_not_infix {value : Text} (h : ¬ ("*/" : Text) <:+: value) :
    afterBlock? (value ++ "*/") = some [] := by
  induction value with
  | nil => rfl
  | cons c value ih =>
    have later := ih fun inside => h (inside.trans (List.suffix_cons c value).isInfix)
    by_cases star : c = .scalar '*'
    · subst star
      cases value with
      | nil => rfl
      | cons d value =>
        have other : d ≠ .scalar '/' := by
          rintro rfl
          exact h ⟨[], value, rfl⟩
        rw [List.cons_append, List.cons_append, afterBlock?_star other]
        exact later
    · rw [List.cons_append, afterBlock?_cons_of_ne star, later]

theorem isClosed_of_isContained {comment : Comment} (h : comment.IsContained) :
    IsClosed comment := by
  obtain ⟨block, value⟩ := comment
  cases block with
  | true => exact afterBlock?_of_not_infix h
  | false => exact h

end Script

/-! ## Where lines begin -/

/-- Ahead of each line of a statement or an entry a line has ended, and the line goes on with the
text of its node. -/
def LinesBegin (layout : Layout) (fresh : Bool) (pieces : List Piece) : Prop :=
  ∀ before level node after, pieces = before ++ .line level node :: after →
    ((fresh = true ∧ before = []) ∨ before.getLast? = some .feed) ∧
      ∃ own rest, after = own ++ rest ∧ layout.Begins level node own

section

variable {layout : Layout} {fresh : Bool} {pieces more : List Piece}

/-- Behind pieces whose lines begin well other pieces may follow that begin no line at once. -/
theorem LinesBegin.append (h : LinesBegin layout fresh pieces) (hm : LinesBegin layout false more) :
    LinesBegin layout fresh (pieces ++ more) := by
  intro before level node after split
  obtain ⟨between, rfl, later⟩ | ⟨between, rfl, later⟩ := List.append_eq_append_iff.1 split
  · obtain ⟨nothing | ended, own⟩ := hm between level node after later
    · cases nothing.1
    · exact ⟨.inr (by rw [List.getLast?_append, ended]; rfl), own⟩
  · cases between with
    | nil =>
      obtain ⟨nothing | ended, own⟩ := hm [] level node after later.symm
      · cases nothing.1
      · cases ended
    | cons piece between =>
      obtain ⟨rfl, rfl⟩ := List.cons.inj later
      obtain ⟨ended, own, rest, rfl, begins⟩ := h before level node between rfl
      exact ⟨ended, own, rest ++ more, List.append_assoc .., begins⟩

theorem LinesBegin.single {piece : Piece} (h : ∀ level node, piece ≠ .line level node) :
    LinesBegin layout fresh [piece] := by
  intro before level node after split
  cases before with
  | nil => exact absurd (List.cons.inj split).1 (h level node)
  | cons => simp at split

theorem LinesBegin.between {start finish : Text} (h : LinesBegin layout false pieces) :
    LinesBegin layout false ([.code start] ++ pieces ++ [.code finish]) :=
  (append (single (by simp)) h).append (single (by simp))

/-- Pieces of text among substitutions begin no lines of their own. -/
theorem LinesBegin.woven {quasis : List Node} {substitutions : List (List Piece)}
    (h : ∀ pieces ∈ substitutions, LinesBegin layout false pieces) :
    LinesBegin layout false (Piece.woven quasis substitutions) := by
  induction quasis generalizing substitutions with
  | nil => exact fun before _ _ _ split => by simp [Piece.woven] at split
  | cons quasi quasis ih =>
    cases substitutions with
    | nil => exact append (single (by simp)) (ih (List.forall_mem_nil _))
    | cons pieces rest =>
      obtain ⟨first, others⟩ := List.forall_mem_cons.1 h
      exact ((append (single (by simp)) first.between)).append (ih others)

/-- In printed pieces every line of a statement or an entry begins where a line has ended. The
induction is on the grammar of pieces; the flag tells whether one has ended ahead of them. -/
theorem Printed.linesBegin (h : Printed layout fresh pieces) : LinesBegin layout fresh pieces := by
  induction h with
  | nil => exact fun before _ _ _ split => by simp at split
  | mark | margin | kept => exact .single (by simp)
  | append _ _ ih ihm => exact ih.append ihm
  | round _ ih | square _ ih | brace _ ih => exact ih.between
  | template _ ih => exact (LinesBegin.woven ih).between
  | @feed pieces _ ih =>
    intro before level node after split
    cases before with
    | nil => cases (List.cons.inj split).1
    | cons piece before =>
      obtain ⟨rfl, later⟩ := List.cons.inj split
      obtain ⟨⟨-, rfl⟩ | ended, own⟩ := ih before level node after later
      · exact ⟨.inr rfl, own⟩
      · exact ⟨.inr (by rw [List.getLast?_cons, ended]; rfl), own⟩
  | @line level node pieces begins _ ih =>
    intro before level' node' after split
    cases before with
    | nil =>
      obtain ⟨same, rfl⟩ := List.cons.inj split
      obtain ⟨rfl, rfl⟩ := Piece.line.inj same
      exact ⟨.inl ⟨rfl, rfl⟩, pieces, [], (List.append_nil _).symm, begins⟩
    | cons piece before =>
      obtain ⟨rfl, later⟩ := List.cons.inj split
      obtain ⟨nothing | ended, own⟩ := ih before level' node' after later
      · cases nothing.1
      · exact ⟨.inr (by rw [List.getLast?_cons, ended]; rfl), own⟩

end

/-! ## Reading pieces -/

namespace Script

/-- A text that is kept in a module is read to a place like the one where it begins: it closes just
the brackets that it opens, and no token goes on after it. -/
def isWholeAt (s : State) : Piece → Bool
  | .kept text => (run s text).map State.place = some s.place
  | _ => true

/-- The texts that are kept in pieces are whole where they stand, if the pieces are read without
their comments. -/
def isWhole (layout : Layout) : State → List Piece → Bool
  | _, [] => true
  | s, piece :: rest =>
    isWholeAt s piece && (run s (layout.bare [piece])).all (isWhole layout · rest)

/-- Pieces are read without their comments. Each line begins between tokens, and its margin changes
nothing. -/
inductive Follows (layout : Layout) : State → List Piece → State → Prop
  | nil (s : State) : Follows layout s [] s
  | cons {s t u : State} {piece : Piece} {rest : List Piece} :
    run s (layout.bare [piece]) = some t →
    (∀ level node, piece = .line level node → s.mode = .code ∧ s.last.settled = s.last ∧ t = s) →
    Follows layout t rest u → Follows layout s (piece :: rest) u

section

variable {layout : Layout} {s t u : State} {pieces more : List Piece}

theorem Follows.single {piece : Piece} (done : run s (layout.bare [piece]) = some t)
    (h : ∀ level node, piece = .line level node →
      s.mode = .code ∧ s.last.settled = s.last ∧ t = s) : Follows layout s [piece] t :=
  cons done h (nil t)

theorem Follows.code {text : Text} (done : run s text = some t) :
    Follows layout s [.code text] t :=
  single (by rwa [Layout.bare, Layout.text_code, Layout.text_nil, List.append_nil]) nofun

theorem Follows.append (h : Follows layout s pieces t) (hm : Follows layout t more u) :
    Follows layout s (pieces ++ more) u := by
  induction h with
  | nil => exact hm
  | cons done line _ ih => exact cons done line (ih hm)

theorem Follows.split (h : Follows layout s (pieces ++ more) u) :
    ∃ t, Follows layout s pieces t ∧ Follows layout t more u := by
  induction pieces generalizing s with
  | nil => exact ⟨s, nil s, h⟩
  | cons piece pieces ih =>
    cases h with
    | cons done line others =>
      obtain ⟨t, before, after⟩ := ih others
      exact ⟨t, cons done line before, after⟩

theorem Follows.bare (h : Follows layout s pieces t) : run s (layout.bare pieces) = some t := by
  induction h with
  | nil => rfl
  | @cons _ _ _ piece rest done _ _ ih =>
    have split : layout.bare (piece :: rest) = layout.bare [piece] ++ layout.bare rest :=
      layout.text_append _ [piece] rest
    rw [split, run_append, done, Option.bind_some, ih]

theorem isMark_of_blank {text : Text} (h : ∀ c ∈ text, isBlank c) : IsMark text := by
  intro last frame outer groups
  obtain ⟨last', -, done⟩ := run_blank h (frame :: outer) groups last
  rw [done]
  rfl

/-- Comments are read from between tokens to the same state. -/
theorem run_commentLines (blank : IsBlankLayout layout) (level : Int) {comments : List Comment}
    (closed : ∀ comment ∈ comments, IsClosed comment) {last : Last} (settled : last.settled = last)
    (frames : List Frame) (groups : List Nat) :
    run ⟨.code, last, frames, groups⟩ (layout.commentLines level comments) =
      some ⟨.code, last, frames, groups⟩ := by
  induction comments with
  | nil => rfl
  | cons comment comments ih =>
    obtain ⟨first, others⟩ := List.forall_mem_cons.1 closed
    rw [Layout.commentLines, List.flatMap_cons, run_append,
      run_comment blank first level settled, Option.bind_some]
    exact ih others

/-- A piece is read alike with its comments. -/
theorem run_full_single (blank : IsBlankLayout layout) {piece : Piece}
    (closed : ∀ comment ∈ piece.comments, IsClosed comment)
    (done : run s (layout.bare [piece]) = some t)
    (line : ∀ level node, piece = .line level node →
      s.mode = .code ∧ s.last.settled = s.last ∧ t = s) :
    run s (layout.full [piece]) = some t := by
  cases piece with
  | line level node =>
    obtain ⟨code, settled, rfl⟩ := line level node rfl
    obtain ⟨mode, last, frames, groups⟩ := t
    obtain rfl : mode = .code := code
    have comments : run ⟨.code, last, frames, groups⟩ (layout.commentLines level node.comments) =
        some ⟨.code, last, frames, groups⟩ :=
      run_commentLines blank level closed settled frames groups
    rw [Layout.bare, Layout.text_line, List.nil_append] at done
    rw [Layout.full, Layout.text_line, List.append_assoc, run_append, comments, Option.bind_some]
    exact done
  | _ => exact done

/-- The comments of pieces change nothing in what is read. -/
theorem Follows.full (h : Follows layout s pieces t) (blank : IsBlankLayout layout)
    (closed : ∀ piece ∈ pieces, ∀ comment ∈ piece.comments, IsClosed comment) :
    run s (layout.full pieces) = some t := by
  induction h with
  | nil => rfl
  | @cons s t _ piece rest done line _ ih =>
    obtain ⟨own, others⟩ := List.forall_mem_cons.1 closed
    have split : layout.full (piece :: rest) = layout.full [piece] ++ layout.full rest :=
      layout.text_append _ [piece] rest
    rw [split, run_append, run_full_single blank own done line, Option.bind_some, ih others]

theorem isWhole_append (h : isWhole layout s (pieces ++ more)) (done : Follows layout s pieces t) :
    isWhole layout t more := by
  induction done with
  | nil => exact h
  | cons done _ _ ih =>
    rw [List.cons_append, isWhole, done, Option.all_some, Bool.and_eq_true] at h
    exact ih h.2

/-- What is whole in pieces is whole in the first of them. -/
theorem isWhole_left (h : isWhole layout s (pieces ++ more)) : isWhole layout s pieces := by
  induction pieces generalizing s with
  | nil => rfl
  | cons piece pieces ih =>
    rw [List.cons_append, isWhole, Bool.and_eq_true] at h
    rw [isWhole, Bool.and_eq_true]
    refine ⟨h.1, ?_⟩
    cases done : run s (layout.bare [piece]) with
    | none => rfl
    | some t =>
      rw [done] at h
      exact ih h.2

end

/-! ## Places -/

theorem exists_of_place {s : State} {mode : Mode} {bracket : Bracket} {brackets : List Bracket}
    (h : s.place = (mode, bracket :: brackets)) : ∃ mode' last frame outer groups,
      s = ⟨mode', last, frame :: outer, groups⟩ ∧ mode'.rest = mode ∧ frame.bracket = bracket ∧
        outer.map (·.bracket) = brackets := by
  obtain ⟨mode', last, frames, groups⟩ := s
  obtain ⟨rest, brackets'⟩ := Prod.mk.inj h
  obtain ⟨frame, outer, rfl, same, others⟩ := List.map_eq_cons_iff.1 brackets'
  exact ⟨mode', last, frame, outer, groups, rfl, rest, same, others⟩

theorem rest_eq_code {mode : Mode} (h : mode.rest = .code) : mode = .code := by
  unfold Mode.rest at h
  split at h
  · cases h
  · exact h

theorem rest_eq_template {mode : Mode} (h : mode.rest = .template false false) :
    ∃ dollar, mode = .template false dollar := by
  unfold Mode.rest at h
  split at h
  · exact ⟨_, rfl⟩
  · exact ⟨_, h⟩

/-- Between tokens, inside some bracket. -/
theorem exists_of_place_code {s : State} {bracket : Bracket} {brackets : List Bracket}
    (h : s.place = (.code, bracket :: brackets)) : ∃ last frame outer groups,
      s = ⟨.code, last, frame :: outer, groups⟩ ∧ frame.bracket = bracket ∧
        outer.map (·.bracket) = brackets := by
  obtain ⟨mode, last, frame, outer, groups, rfl, rest, same, others⟩ := exists_of_place h
  obtain rfl := rest_eq_code rest
  exact ⟨last, frame, outer, groups, rfl, same, others⟩

/-- In the text of a template, inside some bracket. -/
theorem exists_of_place_template {s : State} {bracket : Bracket} {brackets : List Bracket}
    (h : s.place = (.template false false, bracket :: brackets)) :
    ∃ dollar last frame outer groups, s = ⟨.template false dollar, last, frame :: outer, groups⟩ ∧
      frame.bracket = bracket ∧ outer.map (·.bracket) = brackets := by
  obtain ⟨mode, last, frame, outer, groups, rfl, rest, same, others⟩ := exists_of_place h
  obtain ⟨dollar, rfl⟩ := rest_eq_template rest
  exact ⟨dollar, last, frame, outer, groups, rfl, same, others⟩

/-- The brackets between tokens, the marks that close them and the modes around them. -/
def closings : List (Bracket × Text × Mode) :=
  [(.round, ")", .code), (.condition, ")", .code), (.square, "]", .code), (.brace, "\x7d", .code),
    (.substitution, "\x7d", .template false false)]

theorem run_closing {own : Bracket} {mark : Text} {mode : Mode}
    (table : (own, mark, mode) ∈ closings) {s : State} {bracket : Bracket} {brackets : List Bracket}
    (h : s.place = (.code, own :: bracket :: brackets)) :
    ∃ t, run s mark = some t ∧ t.place = (mode, bracket :: brackets) := by
  obtain ⟨last, ⟨own', commas, fresh⟩, outer, groups, rfl, same, others⟩ := exists_of_place_code h
  obtain rfl : own' = own := same
  obtain ⟨around, outer, rfl, rfl, rfl⟩ := List.map_eq_cons_iff.1 others
  fin_cases table <;> exact ⟨_, rfl, rfl⟩

/-- At a place of the first mode a text opens a bracket, or a template, with places of the second
mode in it, and the other text closes it. -/
def Encloses (outer inner : Mode) (opens closes : Text) : Prop :=
  ∀ s bracket brackets, s.place = (outer, bracket :: brackets) →
    ∃ t bracket' brackets', run s opens = some t ∧ t.place = (inner, bracket' :: brackets') ∧
      ∀ u, u.place = t.place → ∃ v, run u closes = some v ∧ v.place = s.place

theorem Encloses.of_opens {outer : Mode} {opens closes : Text}
    (h : ∀ s bracket brackets, s.place = (outer, bracket :: brackets) → ∃ t own,
      run s opens = some t ∧ t.place = (.code, own :: bracket :: brackets) ∧
        (own, closes, outer) ∈ closings) : Encloses outer .code opens closes := by
  intro s bracket brackets here
  obtain ⟨t, own, opened, inside, table⟩ := h s bracket brackets here
  refine ⟨t, own, _, opened, inside, fun u same => ?_⟩
  obtain ⟨v, done, back⟩ := run_closing table (same.trans inside)
  exact ⟨v, done, back.trans here.symm⟩

theorem encloses_square : Encloses .code .code "[" "]" := .of_opens fun s bracket brackets h => by
  obtain ⟨last, frame, outer, groups, rfl, rfl, rfl⟩ := exists_of_place_code h
  exact ⟨_, .square, rfl, rfl, by decide⟩

theorem encloses_brace : Encloses .code .code Layout.openBrace Layout.closeBrace :=
  .of_opens fun s bracket brackets h => by
    obtain ⟨last, frame, outer, groups, rfl, rfl, rfl⟩ := exists_of_place_code h
    exact ⟨_, .brace, rfl, rfl, by decide⟩

theorem encloses_round : Encloses .code .code "(" ")" := .of_opens fun s bracket brackets h => by
  obtain ⟨last, frame, outer, groups, rfl, rfl, rfl⟩ := exists_of_place_code h
  refine ⟨_, if last.settled = .condition then .condition else .round, rfl, rfl, ?_⟩
  split <;> decide

theorem encloses_substitution :
    Encloses (.template false false) .code ("$" ++ Layout.openBrace) Layout.closeBrace :=
  .of_opens fun s bracket brackets h => by
    obtain ⟨dollar, last, frame, outer, groups, rfl, rfl, rfl⟩ := exists_of_place_template h
    refine ⟨⟨.code, .operator, ⟨.substitution, 0, true⟩ :: { frame with fresh := false } :: outer,
      groups⟩, .substitution, ?_, rfl, by decide⟩
    cases dollar <;> rfl

theorem encloses_template : Encloses .code (.template false false) "`" "`" := by
  intro s bracket brackets h
  obtain ⟨last, frame, outer, groups, rfl, rfl, rfl⟩ := exists_of_place_code h
  refine ⟨_, frame.bracket, _, rfl, rfl, fun u same => ?_⟩
  obtain ⟨dollar, last', frame', outer', groups', rfl, same, others⟩ :=
    exists_of_place_template same
  refine ⟨⟨.code, .operand, frame' :: outer', groups'⟩, ?_, ?_⟩
  · cases dollar <;> rfl
  · rw [State.place, List.map_cons, same, others]
    rfl

/-! ## Reading what is printed -/

/-- Pieces lead from each place of a mode to the same place, if what is kept in them is whole. Where
a line has ended ahead of them, what has been read last is settled. -/
def Carries (layout : Layout) (fresh : Bool) (mode : Mode) (pieces : List Piece) : Prop :=
  ∀ s bracket brackets, s.place = (mode, bracket :: brackets) →
    (fresh = true → s.last.settled = s.last) → isWhole layout s pieces →
    ∃ t, Follows layout s pieces t ∧ t.place = s.place

section

variable {layout : Layout} {fresh : Bool} {mode outer inner : Mode} {pieces more : List Piece}

theorem Carries.nil : Carries layout fresh mode [] :=
  fun s _ _ _ _ _ => ⟨s, .nil s, rfl⟩

theorem Carries.append (h : Carries layout fresh mode pieces)
    (hm : Carries layout false mode more) : Carries layout fresh mode (pieces ++ more) := by
  intro s bracket brackets here settled whole
  obtain ⟨t, first, same⟩ := h s bracket brackets here settled (isWhole_left whole)
  obtain ⟨u, later, same'⟩ :=
    hm t bracket brackets (same.trans here) (by simp) (isWhole_append whole first)
  exact ⟨u, first.append later, same'.trans same⟩

theorem Carries.kept (text : Text) : Carries layout false mode [.kept text] := by
  intro s bracket brackets _ _ whole
  have done : (run s text).map State.place = some s.place := by
    rw [isWhole, Bool.and_eq_true] at whole
    exact of_decide_eq_true whole.1
  obtain ⟨t, done, same⟩ := Option.map_eq_some_iff.1 done
  refine ⟨t, .single ?_ nofun, same⟩
  rwa [Layout.bare, Layout.text_kept, Layout.text_nil, List.append_nil]

theorem Carries.mark {text : Text} (h : IsMark text) : Carries layout false .code [.code text] := by
  intro s bracket brackets here _ _
  obtain ⟨last, frame, outer, groups, rfl, rfl, rfl⟩ := exists_of_place_code here
  obtain ⟨t, done, same⟩ := Option.map_eq_some_iff.1 (h last frame outer groups)
  exact ⟨t, .code done, same⟩

theorem Carries.enclosed {opens closes : Text} (encloses : Encloses outer inner opens closes)
    (h : Carries layout false inner pieces) :
    Carries layout false outer ([.code opens] ++ pieces ++ [.code closes]) := by
  intro s bracket brackets here _ whole
  obtain ⟨t, bracket', brackets', opened, inside, closed⟩ := encloses s bracket brackets here
  have first : Follows layout s [.code opens] t := .code opened
  obtain ⟨u, middle, same⟩ := h t bracket' brackets' inside (by simp)
    (isWhole_append (isWhole_left whole) first)
  obtain ⟨v, done, back⟩ := closed u same
  exact ⟨v, (first.append middle).append (.code done), back⟩

/-- Substitutions lead back to the text of the template. -/
theorem Carries.woven {quasis : List Node} {substitutions : List (List Piece)}
    (h : ∀ pieces ∈ substitutions, Carries layout false .code pieces) :
    Carries layout false (.template false false) (Piece.woven quasis substitutions) := by
  induction quasis generalizing substitutions with
  | nil => exact nil
  | cons quasi quasis ih =>
    cases substitutions with
    | nil => exact (kept _).append (ih (List.forall_mem_nil _))
    | cons pieces rest =>
      obtain ⟨first, others⟩ := List.forall_mem_cons.1 h
      exact ((kept _).append (enclosed encloses_substitution first)).append (ih others)

theorem Carries.feed (h : Carries layout true .code pieces) :
    Carries layout false .code ([.feed] ++ pieces) := by
  intro s bracket brackets here _ whole
  obtain ⟨last, frame, outer, groups, rfl, rfl, rfl⟩ := exists_of_place_code here
  have first : Follows layout ⟨.code, last, frame :: outer, groups⟩ [.feed]
      ⟨.code, last.settled, frame :: outer, groups⟩ := .single rfl nofun
  obtain ⟨t, later, same⟩ := h _ frame.bracket (outer.map (·.bracket)) rfl
    (fun _ => last.settled_settled) (isWhole_append whole first)
  exact ⟨t, first.append later, same⟩

/-- A line leads back to where it begins. The comments ahead of it are passed by, since what has
been read last is settled there. -/
theorem Carries.line (blank : IsBlankLayout layout) (level : Int) (node : Node)
    (h : Carries layout false .code pieces) :
    Carries layout true .code ([.line level node] ++ pieces) := by
  intro s bracket brackets here settled whole
  obtain ⟨last, frame, outer, groups, rfl, rfl, rfl⟩ := exists_of_place_code here
  obtain ⟨last', keeps, margin⟩ :=
    run_blank (isBlank_of_mem_margin blank level) (frame :: outer) groups last
  obtain rfl := keeps (settled rfl)
  have first : Follows layout ⟨.code, last', frame :: outer, groups⟩ [.line level node]
      ⟨.code, last', frame :: outer, groups⟩ := by
    refine .single ?_ fun _ _ _ => ⟨rfl, settled rfl, rfl⟩
    rwa [Layout.bare, Layout.text_line, Layout.text_nil, List.append_nil]
  obtain ⟨t, later, same⟩ := h _ _ _ here (by simp) (isWhole_append whole first)
  exact ⟨t, first.append later, same⟩

/-- Whatever is printed leads from between tokens to between tokens. -/
theorem carries_of_printed (blank : IsBlankLayout layout) (h : Printed layout fresh pieces) :
    Carries layout fresh .code pieces := by
  induction h with
  | nil => exact .nil
  | mark isMark => exact .mark isMark
  | margin level => exact .mark (isMark_of_blank (isBlank_of_mem_margin blank level))
  | kept text => exact .kept text
  | append _ _ ih ihm => exact ih.append ihm
  | round _ ih => exact .enclosed encloses_round ih
  | square _ ih => exact .enclosed encloses_square ih
  | brace _ ih => exact .enclosed encloses_brace ih
  | template _ ih => exact .enclosed encloses_template (.woven ih)
  | feed _ ih => exact ih.feed
  | line _ _ ih => exact ih.line blank _ _

end

end Script

open Script

/-- **Comments are transparent.** A module is printed as the module with no comments anywhere, but
for whole lines ahead of the lines of the statements and entries that have comments. A script reads
past these lines: if what is kept in the module is whole where it stands, each piece is read from
the state in which it is read without comments, the comments are read between tokens, and none of
them goes on after the end of its lines. -/
theorem program_transparent {layout : Layout} (blank : IsBlankLayout layout) {program : Node}
    {text : Text} (printed : layout.program program = .ok text)
    (contained : ∀ piece ∈ program.modulePieces layout, ∀ comment ∈ piece.comments,
      comment.IsContained) :
    let pieces := program.modulePieces layout
    text = layout.full pieces ∧ layout.program program.uncommented = .ok (layout.bare pieces) ∧
    (∀ before level node after, pieces = before ++ .line level node :: after →
      (before = [] ∨ before.getLast? = some .feed) ∧
        ∃ own rest, after = own ++ rest ∧ layout.Begins level node own) ∧
    ∀ s : State, s.mode = .code → s.last.settled = s.last → s.frames ≠ [] →
      isWhole layout s pieces → ∀ before after, pieces = before ++ after → ∃ t,
        run s (layout.full before) = some t ∧ run s (layout.bare before) = some t ∧
        ∀ level node rest, after = .line level node :: rest → t.mode = .code ∧
          ∀ comment ∈ node.comments, run t (layout.comment level comment ++ "\n") = some t := by
  obtain ⟨full, bare, whole⟩ := program_splits printed
  have closed : ∀ piece ∈ program.modulePieces layout, ∀ comment ∈ piece.comments,
      IsClosed comment :=
    fun piece mem comment own => isClosed_of_isContained (contained piece mem comment own)
  refine ⟨full, bare, fun before level node after split => ?_, ?_⟩
  · obtain ⟨ended, own⟩ := whole.linesBegin before level node after split
    exact ⟨ended.imp_left And.right, own⟩
  · intro s code settled inside kept before after split
    obtain ⟨frame, outer, frames⟩ := List.exists_cons_of_ne_nil inside
    have place : s.place = (.code, frame.bracket :: outer.map (·.bracket)) := by
      rw [State.place, code, frames]
      rfl
    obtain ⟨u, follows, -⟩ := carries_of_printed blank whole s _ _ place (fun _ => settled) kept
    rw [split] at follows closed
    obtain ⟨hb, ha⟩ := List.forall_mem_append.1 closed
    obtain ⟨t, first, later⟩ := follows.split
    refine ⟨t, first.full blank hb, first.bare, ?_⟩
    rintro level node rest rfl
    cases later with
    | cons _ line _ =>
      obtain ⟨code, settled, -⟩ := line level node rfl
      obtain ⟨mode, last, frames, groups⟩ := t
      obtain rfl : mode = .code := code
      exact ⟨rfl, fun comment own => run_comment blank
        ((List.forall_mem_cons.1 ha).1 comment own) level settled frames groups⟩

/-- A module with comments ahead of statements, of an entry in a template, and in a block. -/
def commentedModule : Node :=
  let entry : Node :=
    .mk none [⟨true, " first\n   second *"⟩] (.property (.identifier "k") (.of (.number "1")) false)
  let template : Node := .of (.template [.of (.quasi "a // " false), .of (.quasi "" true)]
    [.of (.object [entry])])
  let kept : Node :=
    .mk none [⟨false, " kept"⟩] (.expressionStatement (.of (.raw "call" "f(/`/)" [])))
  .of (.program [
    .mk none [⟨false, " bound"⟩] (.variables "const" [.of (.declarator (.identifier "x")
      (some template))]),
    .mk none [⟨true, ""⟩, ⟨false, "*/"⟩] (.block [kept])])

/-- Comments ahead of statements and of an entry inside a template, with the two texts and the state
that both are read to. -/
theorem transparent_commentedModule :
    let layout : Layout := {}
    let start : State := ⟨.code, .operator, [⟨.brace, 0, true⟩], []⟩
    let text : Text := "// bound\nconst x = `a // $\x7b\x7b\n  /* first\n   second **/\n" ++
      "  k: 1\n\x7d\x7d`;\n/**/\n//*/\n\x7b\n  // kept\n  f(/`/);\n\x7d\n"
    let bare : Text := "const x = `a // $\x7b\x7b\n  k: 1\n\x7d\x7d`;\n\x7b\n  f(/`/);\n\x7d\n"
    let pieces := commentedModule.modulePieces layout
    IsBlankLayout layout ∧ layout.program commentedModule = .ok text ∧
      (∀ piece ∈ pieces, ∀ comment ∈ piece.comments, comment.IsContained) ∧
      layout.program commentedModule.uncommented = .ok bare ∧
      isWhole layout start pieces ∧ ∃ t, run start text = some t ∧ run start bare = some t := by
  intro layout start text bare pieces
  have blank : ∀ c ∈ layout.indent, isBlank c := by decide
  have printed : layout.program commentedModule = .ok text :=
    Except.toOption_eq_some.1 (by decide +kernel)
  have contained : ∀ piece ∈ pieces, ∀ comment ∈ piece.comments, comment.IsContained := by
    decide +kernel
  have kept : isWhole layout start pieces := by decide +kernel
  have same : layout.bare pieces = bare := by decide +kernel
  obtain ⟨full, without, -, reads⟩ := program_transparent blank printed contained
  obtain ⟨t, hf, hb, -⟩ := reads start rfl rfl (by decide) kept pieces [] (List.append_nil _).symm
  rw [same] at without hb
  rw [← full] at hf
  exact ⟨blank, printed, contained, without, kept, t, hf, hb⟩

end ElementWrapper
