import ElementWrapper.Module.Printer
import ElementWrapper.Proofs.Module.Recursion
import ElementWrapper.Proofs.Printer.Reader
import ElementWrapper.Proofs.Script.Reading

/-!
The arguments of calls, read back from the text of an expression.
-/

namespace ElementWrapper

namespace Script

open Literal

/-! ## Blanks, names and strings -/

theorem scanCode_blank {c : CodePoint} (h : isBlank c) (last : Last) :
    scanCode last c = (.code, last.settled, []) := by
  unfold scanCode
  split
  all_goals first
    | cases h
    | rw [if_pos h]

/-- Blanks change nothing but what has been read last, which they settle. -/
theorem run_blank {text : Text} (h : ∀ c ∈ text, isBlank c) (frames : List Frame)
    (groups : List Nat) (last : Last) :
    ∃ last', (last.settled = last → last' = last) ∧
      run ⟨.code, last, frames, groups⟩ text = some ⟨.code, last', frames, groups⟩ := by
  induction text generalizing last with
  | nil => exact ⟨last, fun _ => rfl, rfl⟩
  | cons c text ih =>
    obtain ⟨blank, others⟩ := List.forall_mem_cons.1 h
    have first : step ⟨.code, last, frames, groups⟩ c =
        some ⟨.code, last.settled, frames, groups⟩ := by
      simp only [step, scan, scanCode_blank blank]
      rfl
    obtain ⟨last', keeps, rest⟩ := ih others last.settled
    refine ⟨last', fun same => ?_, ?_⟩
    · rw [same] at keeps
      exact keeps same
    · rw [run_cons, first, Option.bind_some, rest]

theorem isOperator_of_isNamePart {c : Char} (h : isNamePart c) : isOperator c = false := by
  refine Bool.eq_false_iff.2 fun operator => ?_
  have mem := List.contains_iff_mem.1 operator
  fin_cases mem <;> cases h

/-- A part of a name belongs to an item, whatever comes before it. -/
theorem isTokenPart_of_isNamePart {c : CodePoint} (h : c.all isNamePart) : IsTokenPart c := by
  intro last
  refine ⟨last.letter c, ?_⟩
  have visible : ¬ isBlank c := by simp [isBlank_of_isNamePart h]
  have operand : ¬ c.all isOperator := by
    cases c with
    | scalar c => simpa [CodePoint.all] using isOperator_of_isNamePart h
    | surrogate => cases h
  unfold scanCode
  split
  all_goals first
    | cases h
    | rw [if_neg visible, if_neg operand]

/-- A piece of a string that neither ends it nor escapes anything. -/
theorem run_string_plain {text : Text} (h : ∀ c ∈ text, IsPlain c) (last : Last)
    (frames : List Frame) (groups : List Nat) :
    run ⟨.string doubleQuote false, last, frames, groups⟩ text =
      some ⟨.string doubleQuote false, last, frames, groups⟩ := by
  induction text with
  | nil => rfl
  | cons c text ih =>
    obtain ⟨plain, others⟩ := List.forall_mem_cons.1 h
    have first : step ⟨.string doubleQuote false, last, frames, groups⟩ c =
        some ⟨.string doubleQuote false, last, frames, groups⟩ := by
      have escapes : decide (c = .scalar '\\') = false := decide_eq_false plain.1
      simp only [step, scan, if_neg plain.2.1, escapes]
      rfl
    rw [run_cons, first, Option.bind_some, ih others]

/-- Within double quotes the body of a quoted text does not end the string. -/
theorem run_string_quoteBody (value : Text) (last : Last) (frames : List Frame)
    (groups : List Nat) :
    run ⟨.string doubleQuote false, last, frames, groups⟩ (quoteBody value) =
      some ⟨.string doubleQuote false, last, frames, groups⟩ := by
  induction value with
  | nil => rfl
  | cons c value ih =>
    rw [quoteBody_cons, run_append]
    obtain ⟨plain, written⟩ | ⟨e, tail, written, escapes⟩ := escape_cases c
    · rw [written, run_string_plain (List.forall_mem_singleton.2 plain), Option.bind_some, ih]
    · have escaped : run ⟨.string doubleQuote false, last, frames, groups⟩
          [backslash, .scalar e] = some ⟨.string doubleQuote false, last, frames, groups⟩ := rfl
      have whole : escape c = [backslash, .scalar e] ++ Text.ofChars tail := written
      have plain : ∀ d ∈ Text.ofChars tail, IsPlain d := List.forall_mem_map.2 escapes.plain
      rw [whole, run_append, escaped, Option.bind_some, run_string_plain plain, Option.bind_some,
        ih]

theorem reads_quote (value : Text) (start : Last) : Reads (quote value) start 0 [] := by
  have opened : step ⟨.code, start, [⟨.round, 0, true⟩], []⟩ doubleQuote =
      some ⟨.string doubleQuote false, .operand, [⟨.round, 0, false⟩], []⟩ := rfl
  refine ⟨.operand, ?_⟩
  have split : quote value = doubleQuote :: (quoteBody value ++ [doubleQuote]) := rfl
  rw [split, run_cons, opened, Option.bind_some, run_append, run_string_quoteBody,
    Option.bind_some]
  rfl

/-! ## Expressions -/

variable {start : Last} {commas commas' : Nat} {groups groups' : List Nat}

theorem Reads.member {target name : Text} (ht : Reads target start commas groups)
    (hn : Reads name .dot 0 []) : Reads (target ++ "." ++ name) start commas groups := by
  obtain ⟨last, ht⟩ := ht
  obtain ⟨last', hn⟩ := hn.inside ⟨.round, commas, false⟩ [] groups
  have dot : run ⟨.code, last, [⟨.round, commas, false⟩], groups⟩ "." =
      some ⟨.code, .dot, [⟨.round, commas, false⟩], groups⟩ := rfl
  refine ⟨last', ?_⟩
  rw [run_append, run_append, ht, Option.bind_some, dot, Option.bind_some, hn]
  simp

theorem Reads.index {target name : Text} (ht : Reads target start commas groups)
    (hn : Reads name .operator commas' groups') :
    Reads (target ++ "[" ++ name ++ "]") start commas (groups ++ groups') := by
  obtain ⟨last, ht⟩ := ht
  obtain ⟨last', hn⟩ := hn.inside ⟨.square, 0, true⟩ [⟨.round, commas, false⟩] groups
  have opened : run ⟨.code, last, [⟨.round, commas, false⟩], groups⟩ "[" =
      some ⟨.code, .operator, [⟨.square, 0, true⟩, ⟨.round, commas, false⟩], groups⟩ := rfl
  refine ⟨.operand, ?_⟩
  rw [run_append, run_append, run_append, ht, Option.bind_some, opened, Option.bind_some, hn]
  rfl

/-- A mark between two operands. -/
def Separates (mark : Text) : Prop :=
  ∀ last commas groups, run ⟨.code, last, [⟨.round, commas, false⟩], groups⟩ mark =
    some ⟨.code, .operator, [⟨.round, commas, false⟩], groups⟩

theorem Reads.followed {left mark right : Text} (separates : Separates mark)
    (hl : Reads left start commas groups) (hr : Reads right .operator commas' groups') :
    Reads (left ++ mark ++ right) start (commas + commas') (groups ++ groups') := by
  obtain ⟨last, hl⟩ := hl
  obtain ⟨last', hr⟩ := hr.inside ⟨.round, commas, false⟩ [] groups
  refine ⟨last', ?_⟩
  rw [run_append, run_append, hl, Option.bind_some, separates, Option.bind_some, hr]

/-- How a text is read where an operand may begin: its commas outside brackets and the numbers of
items in its round brackets. -/
def ReadsAs (text : Text) (reading : Nat × List Nat) : Prop :=
  Reads text .operator reading.1 reading.2

/-- Texts with commas between them, in any bracket: their own groups are closed in their order, and
each text counts for one item more than it has commas. -/
theorem run_arguments {texts : List Text} {readings : List (Nat × List Nat)}
    (h : List.Forall₂ ReadsAs texts readings) (bracket : Bracket) (before : Nat)
    (outer : List Frame) (groups : List Nat) :
    ∃ last frame, run ⟨.code, .operator, ⟨bracket, before, true⟩ :: outer, groups⟩
        (Text.join ", " texts) =
          some ⟨.code, last, frame :: outer, groups ++ readings.flatMap (·.2)⟩ ∧
      frame.bracket = bracket ∧
      frame.items = before + (readings.map (·.1 + 1)).sum := by
  induction h generalizing before groups with
  | nil => exact ⟨.operator, ⟨bracket, before, true⟩, by simp [Text.join], rfl, rfl⟩
  | @cons text reading texts readings first others ih =>
    obtain ⟨last, done⟩ := first.inside ⟨bracket, before, true⟩ outer groups
    cases texts with
    | nil =>
      cases others
      exact ⟨last, _, by simpa [Text.join] using done, rfl, rfl⟩
    | cons text' texts =>
      have comma : run ⟨.code, last, ⟨bracket, before + reading.1, false⟩ :: outer,
          groups ++ reading.2⟩ ", " = some ⟨.code, .operator,
            ⟨bracket, before + reading.1 + 1, true⟩ :: outer, groups ++ reading.2⟩ := rfl
      obtain ⟨last', frame, rest, same, items⟩ :=
        ih (before + reading.1 + 1) (groups ++ reading.2)
      refine ⟨last', frame, ?_, same, ?_⟩
      · rw [Text.join, run_append, run_append, done, Option.bind_some, comma, Option.bind_some,
          rest]
        · simp
        · exact List.cons_ne_nil text' texts
      · rw [items, List.map_cons, List.sum_cons]
        omega

/-- A callee with arguments: the groups of the callee come first, then those of the arguments, and
then the one of the call. -/
theorem Reads.call {callee : Text} {texts : List Text} {readings : List (Nat × List Nat)}
    (hc : Reads callee start commas groups) (ha : List.Forall₂ ReadsAs texts readings) :
    Reads (callee ++ "(" ++ Text.join ", " texts ++ ")") start commas
      (groups ++ readings.flatMap (·.2) ++ [(readings.map (·.1 + 1)).sum]) := by
  obtain ⟨last, hc⟩ := hc
  let bracket : Bracket := if last.settled = .condition then .condition else .round
  have opened : run ⟨.code, last, [⟨.round, commas, false⟩], groups⟩ "(" =
      some ⟨.code, .operator, [⟨bracket, 0, true⟩, ⟨.round, commas, false⟩], groups⟩ := rfl
  obtain ⟨last', ⟨_, inner, fresh⟩, done, rfl, items⟩ :=
    run_arguments ha bracket 0 [⟨.round, commas, false⟩] groups
  have closed (more : List Nat) : ∃ last'', run ⟨.code, last', [⟨bracket, inner, fresh⟩,
      ⟨.round, commas, false⟩], more⟩ ")" =
        some ⟨.code, last'', [⟨.round, commas, false⟩],
          more ++ [Frame.items ⟨bracket, inner, fresh⟩]⟩ := by
    by_cases condition : last.settled = .condition
    · rw [show bracket = .condition from if_pos condition]
      exact ⟨.operator, rfl⟩
    · rw [show bracket = .round from if_neg condition]
      exact ⟨.operand, rfl⟩
  obtain ⟨last'', closed⟩ := closed (groups ++ readings.flatMap (·.2))
  refine ⟨last'', ?_⟩
  rw [run_append, run_append, run_append, hc, Option.bind_some, opened, Option.bind_some, done,
    Option.bind_some, closed, items, Nat.zero_add]

/-! ## Entries -/

/-- An entry of an object is read from where an item may begin up to its end. -/
def ReadsEntry (text : Text) (closed : List Nat) : Prop :=
  ∀ frame outer groups, ∃ last frame',
    run ⟨.code, .operator, frame :: outer, groups⟩ text =
      some ⟨.code, last, frame' :: outer, groups ++ closed⟩ ∧ frame'.bracket = frame.bracket

/-- Entries with commas between them close the groups of each of them and leave the bracket open. -/
theorem run_entries {texts : List Text} {closed : List (List Nat)}
    (h : List.Forall₂ ReadsEntry texts closed) (frame : Frame) (outer : List Frame)
    (groups : List Nat) :
    ∃ last frame',
      run ⟨.code, .operator, frame :: outer, groups⟩ (Text.join ",\n" texts) =
        some ⟨.code, last, frame' :: outer, groups ++ closed.flatten⟩ ∧
      frame'.bracket = frame.bracket := by
  induction h generalizing frame groups with
  | nil => exact ⟨.operator, frame, by simp [Text.join], rfl⟩
  | @cons text reading texts readings first others ih =>
    obtain ⟨last, inner, done, same⟩ := first frame outer groups
    cases texts with
    | nil =>
      cases others
      exact ⟨last, inner, by simpa [Text.join] using done, same⟩
    | cons text' texts =>
      have comma : run ⟨.code, last, inner :: outer, groups ++ reading⟩ ",\n" =
          some ⟨.code, .operator, ⟨inner.bracket, inner.commas + 1, true⟩ :: outer,
            groups ++ reading⟩ := rfl
      obtain ⟨last', frame', rest, same'⟩ :=
        ih ⟨inner.bracket, inner.commas + 1, true⟩ (groups ++ reading)
      refine ⟨last', frame', ?_, same'.trans same⟩
      rw [Text.join, run_append, run_append, done, Option.bind_some, comma, Option.bind_some, rest]
      · simp
      · exact List.cons_ne_nil text' texts

variable {layout : Layout}

/-- The indentation is made of blanks. -/
def IsBlankLayout (layout : Layout) : Prop := ∀ c ∈ layout.indent, isBlank c

theorem isBlank_of_mem_margin (h : IsBlankLayout layout) (level : Int) :
    ∀ c ∈ layout.margin level, isBlank c := by
  intro c mem
  obtain ⟨piece, copy, mem⟩ := List.mem_flatten.1 mem
  obtain rfl := List.eq_of_mem_replicate copy
  exact h c mem

/-- An object is one item, and the groups in it are those of its entries. The commas between these
are inside its braces. -/
theorem Reads.object (blank : IsBlankLayout layout) {texts : List Text} {closed : List (List Nat)}
    (h : List.Forall₂ ReadsEntry texts closed) (level : Int) (start : Last) :
    Reads (layout.object level texts) start 0 closed.flatten := by
  cases texts with
  | nil =>
    cases h
    exact ⟨.either, rfl⟩
  | cons text texts =>
    have opened : run ⟨.code, start, [⟨.round, 0, true⟩], []⟩ (Layout.openBrace ++ "\n") =
        some ⟨.code, .operator, [⟨.brace, 0, true⟩, ⟨.round, 0, false⟩], []⟩ := rfl
    obtain ⟨last, ⟨bracket, inner, fresh⟩, done, rfl⟩ :=
      run_entries h ⟨.brace, 0, true⟩ [⟨.round, 0, false⟩] []
    have margin : ∀ c ∈ "\n" ++ layout.margin level, isBlank c :=
      List.forall_mem_cons.2 ⟨rfl, isBlank_of_mem_margin blank level⟩
    obtain ⟨last', -, skipped⟩ := run_blank margin
      [⟨.brace, inner, fresh⟩, ⟨.round, 0, false⟩] ([] ++ closed.flatten) last
    have split : layout.object level (text :: texts) = Layout.openBrace ++ "\n" ++
        Text.join ",\n" (text :: texts) ++ ("\n" ++ layout.margin level) ++
          Layout.closeBrace := by
      rw [Layout.object, if_neg (by simp)]
      simp only [List.append_assoc]
    refine ⟨.either, ?_⟩
    rw [split, run_append, run_append, run_append, opened, Option.bind_some, done,
      Option.bind_some, skipped, Option.bind_some]
    rfl

/-! ## Comments -/

/-- What follows the first end of a block comment. -/
def afterBlock? : Text → Option Text
  | .scalar '*' :: .scalar '/' :: rest => some rest
  | _ :: rest => afterBlock? rest
  | [] => none

theorem afterBlock?_cons_of_ne {c : CodePoint} (h : c ≠ .scalar '*') (rest : Text) :
    afterBlock? (c :: rest) = afterBlock? rest := by
  rw [afterBlock?]
  rintro _ rfl
  exact absurd rfl h

theorem afterBlock?_star {c : CodePoint} (h : c ≠ .scalar '/') (rest : Text) :
    afterBlock? (.scalar '*' :: c :: rest) = afterBlock? (c :: rest) := by
  rw [afterBlock?]
  rintro _ - same
  exact h (List.cons.inj same).1

/-- A comment ends where its text ends. -/
def IsClosed (comment : Comment) : Prop :=
  if comment.block then afterBlock? (comment.value ++ "*/") = some []
  else ∀ c ∈ comment.value, endsLine c = false

/-- A block comment is passed by up to its first end; `star` says that the code point before the
text was a star, which may be the half of that end. -/
theorem run_blockComment {text rest : Text} {last : Last} (settled : last.settled = last)
    (star : Bool) (h : afterBlock? (if star then .scalar '*' :: text else text) = some rest)
    (frames : List Frame) (groups : List Nat) :
    run ⟨.blockComment star, last, frames, groups⟩ text =
      run ⟨.code, last, frames, groups⟩ rest := by
  induction text generalizing star with
  | nil => cases star <;> cases h
  | cons c text ih =>
    by_cases ends : star = true ∧ c = .scalar '/'
    · obtain ⟨rfl, rfl⟩ := ends
      obtain rfl := Option.some.inj h
      have last' : step ⟨.blockComment true, last, frames, groups⟩ (.scalar '/') =
          some ⟨.code, last.settled, frames, groups⟩ := rfl
      rw [run_cons, last', settled, Option.bind_some]
    · have later : afterBlock? (if decide (c = .scalar '*') then .scalar '*' :: text else text) =
          some rest := by
        have here : afterBlock? (c :: text) = some rest := by
          cases star with
          | false => exact h
          | true => rwa [if_pos rfl, afterBlock?_star (fun same => ends ⟨rfl, same⟩)] at h
        by_cases star : c = .scalar '*'
        · rwa [if_pos (by simpa using star), ← star]
        · rwa [if_neg (by simpa using star), ← afterBlock?_cons_of_ne star]
      have first : step ⟨.blockComment star, last, frames, groups⟩ c =
          some ⟨.blockComment (c = .scalar '*'), last, frames, groups⟩ := by
        simp only [step, scan]
        rw [if_neg (by simpa using ends)]
        rfl
      rw [run_cons, first, Option.bind_some, ih _ later]

/-- A line comment goes on as long as the line does. -/
theorem run_lineComment {text : Text} (h : ∀ c ∈ text, endsLine c = false) (last : Last)
    (frames : List Frame) (groups : List Nat) :
    run ⟨.lineComment, last, frames, groups⟩ text =
      some ⟨.lineComment, last, frames, groups⟩ := by
  induction text with
  | nil => rfl
  | cons c text ih =>
    obtain ⟨stays, others⟩ := List.forall_mem_cons.1 h
    have first : step ⟨.lineComment, last, frames, groups⟩ c =
        some ⟨.lineComment, last, frames, groups⟩ := by
      simp only [step, scan, stays]
      rfl
    rw [run_cons, first, Option.bind_some, ih others]

/-- A comment on a line of its own leaves no trace between tokens, if it ends where its text
ends. -/
theorem run_comment (blank : IsBlankLayout layout) {comment : Comment} (h : IsClosed comment)
    (level : Int) {last : Last} (settled : last.settled = last) (frames : List Frame)
    (groups : List Nat) :
    run ⟨.code, last, frames, groups⟩ (layout.comment level comment ++ "\n") =
      some ⟨.code, last, frames, groups⟩ := by
  obtain ⟨last', keeps, margin⟩ := run_blank (isBlank_of_mem_margin blank level) frames groups last
  obtain rfl := keeps settled
  have feed : run ⟨.code, last', frames, groups⟩ "\n" =
      some ⟨.code, last'.settled, frames, groups⟩ := rfl
  obtain ⟨block, value⟩ := comment
  rw [Layout.comment, List.append_assoc, run_append, margin, Option.bind_some]
  cases block with
  | true =>
    have opened : run ⟨.code, last', frames, groups⟩ "/*" =
        some ⟨.blockComment false, last', frames, groups⟩ := rfl
    have closed : afterBlock? (value ++ "*/") = some [] := h
    have split : "/*" ++ value ++ "*/" ++ "\n" = ("/*" : Text) ++ (value ++ "*/") ++ "\n" := by
      simp only [List.append_assoc]
    rw [if_pos rfl, split, run_append, run_append, opened, Option.bind_some,
      run_blockComment settled false closed, run_nil, Option.bind_some, feed, settled]
  | false =>
    have opened : run ⟨.code, last', frames, groups⟩ "//" =
        some ⟨.lineComment, last', frames, groups⟩ := rfl
    have ended : run ⟨.lineComment, last', frames, groups⟩ "\n" =
        some ⟨.code, last'.settled, frames, groups⟩ := rfl
    have stays : ∀ c ∈ value, endsLine c = false := h
    rw [if_neg (by simp), run_append, run_append, opened, Option.bind_some,
      run_lineComment stays, Option.bind_some, ended, settled]

theorem commented_cons (layout : Layout) (level : Int) (comment : Comment)
    (comments : List Comment) (code : Text) :
    layout.commented level (comment :: comments) code =
      layout.comment level comment ++ "\n" ++ layout.commented level comments code := by
  rw [Layout.commented, List.map_cons, List.cons_append, Text.join]
  · rfl
  · simp

/-- Comments ahead of an entry do not change how it is read. -/
theorem ReadsEntry.commented (blank : IsBlankLayout layout) {comments : List Comment}
    (closed : ∀ comment ∈ comments, IsClosed comment) {code : Text} (h : ReadsEntry code groups)
    (level : Int) : ReadsEntry (layout.commented level comments code) groups := by
  intro frame outer before
  induction comments with
  | nil =>
    obtain ⟨last, keeps, margin⟩ := run_blank (isBlank_of_mem_margin blank level)
      (frame :: outer) before .operator
    obtain rfl := keeps rfl
    obtain ⟨last, frame', done, same⟩ := h frame outer before
    refine ⟨last, frame', ?_, same⟩
    have bare : layout.commented level [] code = layout.margin level ++ code := rfl
    rw [bare, run_append, margin, Option.bind_some, done]
  | cons comment comments ih =>
    obtain ⟨first, others⟩ := List.forall_mem_cons.1 closed
    obtain ⟨last, frame', done, same⟩ := ih others
    refine ⟨last, frame', ?_, same⟩
    rw [commented_cons, run_append, run_comment blank first level rfl, Option.bind_some, done]

theorem Reads.entry {text : Text} (h : Reads text .operator commas groups) :
    ReadsEntry text groups := by
  intro frame outer before
  obtain ⟨last, done⟩ := h.inside frame outer before
  exact ⟨last, _, done, rfl⟩

theorem Reads.bracketed {name : Text} (h : Reads name .operator commas groups) :
    Reads (Layout.bracketed name) .operator 0 groups := by
  obtain ⟨last, done⟩ := h.inside ⟨.square, 0, true⟩ [⟨.round, 0, false⟩] []
  have opened : run ⟨.code, .operator, [⟨.round, 0, true⟩], []⟩ "[" =
      some ⟨.code, .operator, [⟨.square, 0, true⟩, ⟨.round, 0, false⟩], []⟩ := rfl
  refine ⟨.operand, ?_⟩
  rw [Layout.bracketed, run_append, run_append, opened, Option.bind_some, done]
  rfl

/-- A plain name is one item. -/
theorem reads_isPlainName {name : Text} (h : isPlainName name) (start : Last) :
    Reads name start 0 [] := by
  obtain ⟨first, rest, -, parts, eq⟩ := Printer.exists_of_isPlainName h
  have bare : Reads (first :: rest) start 0 [] :=
    reads_token (fun c mem => isTokenPart_of_isNamePart (parts c mem)) (by simp) start
  rcases eq with rfl | rfl
  · exact bare
  · obtain ⟨last, done⟩ := bare
    refine ⟨last.settled, ?_⟩
    rw [run_append, done]
    rfl

end Script

end ElementWrapper
