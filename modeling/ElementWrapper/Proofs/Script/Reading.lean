import ElementWrapper.Proofs.Literal.Quotation

/-!
How a script divides a text into brackets and the items between commas. `run` reads a text one code
point after the other. It keeps the brackets that are open, with the commas in each, and notes for
each pair of round brackets that is closed how many items stand between them: of the brackets of a
call these are the arguments.

Commas and brackets count only where a token may begin, and not inside strings, templates, comments
and regular expressions. Whether a slash divides or begins a regular expression depends on the token
before it (`Last.isOperand?`); where it takes more than that to tell, a text is not read at all.

A text that is read as a whole by itself is read alike wherever an operand may begin, whatever
brackets are open there (`Reads.inside`).
-/

namespace ElementWrapper.Script

open Literal (endsLine)

/-! ## Tokens -/

/-- A blank or the end of a line between two tokens. -/
def isBlank (c : CodePoint) : Bool :=
  let n := c.toNat
  (9 ≤ n ∧ n ≤ 13) ∨ (0x2000 ≤ n ∧ n ≤ 0x200A) ∨
    n ∈ [0x20, 0xA0, 0x1680, 0x2028, 0x2029, 0x202F, 0x205F, 0x3000, 0xFEFF]

/-- No part of a name is a blank. -/
theorem isBlank_of_isNamePart {c : CodePoint} (h : c.all Literal.isNamePart) :
    isBlank c = false := by
  cases c with
  | surrogate => cases h
  | scalar c =>
    have visible : 0x20 < c.toNat ∧ c.toNat < 0x7F := by
      simp only [CodePoint.all, Literal.isNamePart, Literal.isNameStart, Char.isAlpha,
        Char.isUpper, Char.isLower, Char.isDigit, Bool.or_eq_true, Bool.and_eq_true,
        decide_eq_true_eq, beq_iff_eq, ge_iff_le, UInt32.le_iff_toNat_le, Char.toNat_val,
        Char.reduceToNat] at h
      obtain ((letter | rfl) | rfl) | digit := h
      · omega
      · decide
      · decide
      · omega
    simp only [isBlank, CodePoint.toNat, decide_eq_false_iff_not, List.mem_cons,
      List.not_mem_nil, or_false]
    omega

/-- The words after which an operand follows. -/
def operators : List Text :=
  ["await", "case", "delete", "do", "else", "in", "instanceof", "new", "return", "throw", "typeof",
    "void", "yield"]

/-- The words with a condition in brackets after them. -/
def conditions : List Text := ["for", "if", "while", "with"]

/-- The words after which either may follow, an operand or an operator. -/
def ambiguous : List Text := ["break", "continue", "debugger", "default", "extends", "of"]

/-- What has been read last, blanks and comments apart. -/
inductive Last where
  /-- An operator, or a mark that no operand ends with. -/
  | operator
  /-- The end of an operand. -/
  | operand
  /-- The end of a block or of an object, or a word that may be a name or not. -/
  | either
  /-- A word with a condition in brackets after it. -/
  | condition
  | dot
  /-- A word after a dot. -/
  | member
  /-- A word that may go on. -/
  | word (letters : Text)
  /-- A plus or a minus, and whether it stands right after an operand. -/
  | sign (mark : CodePoint) (follows : Bool)
  deriving DecidableEq

/-- What has been read last when a blank ends it. -/
def Last.settled : Last → Last
  | member => operand
  | sign .. => operator
  | word letters =>
    if letters ∈ operators then operator
    else if letters ∈ conditions then condition
    else if letters ∈ ambiguous then either
    else operand
  | last => last

theorem Last.settled_settled (last : Last) : last.settled.settled = last.settled := by
  cases last with
  | word letters =>
    rw [settled]
    repeat' split
    all_goals rfl
  | _ => rfl

/-- Whether a slash divides what has been read last or begins a regular expression, if that can be
told. -/
def Last.isOperand? (last : Last) : Option Bool :=
  match last.settled with
  | operator => some false
  | either | condition => none
  | _ => some true

/-- What has been read last after one more letter. -/
def Last.letter (c : CodePoint) : Last → Last
  | word letters => word (letters ++ [c])
  | dot | member => member
  | condition => condition
  | _ => word [c]

/-- What has been read last after a plus or a minus; two of them count an operand up or down. -/
def Last.signed (c : CodePoint) : Last → Last
  | sign mark follows => if mark = c then (if follows then operand else operator) else sign c false
  | last => sign c (last.isOperand? ≠ some false)

/-- What the next code point is read as a part of. -/
inductive Mode where
  | code
  /-- A slash has been read that may begin a comment. -/
  | slash
  | lineComment
  | blockComment (star : Bool)
  | string (quote : CodePoint) (escaped : Bool)
  | template (escaped dollar : Bool)
  /-- A regular expression. -/
  | pattern (escaped inClass : Bool)
  deriving DecidableEq

inductive Bracket where
  | round
  /-- The round bracket around a condition. -/
  | condition
  | square
  | brace
  /-- The brace of a substitution in a template. -/
  | substitution
  deriving DecidableEq

/-- What a code point does to the open brackets. -/
inductive Act where
  /-- It belongs to an item. -/
  | item
  | comma
  | opens (bracket : Bracket)
  | closes (bracket : Bracket)
  /-- What it does cannot be told. -/
  | stuck

/-- The marks that stand between operands or before them. -/
def isOperator (c : Char) : Bool :=
  ['*', '%', '=', '<', '>', '!', '?', ':', ';', '&', '|', '^', '~', '@', '\\'].contains c

/-- A code point between tokens. -/
def scanCode (last : Last) (c : CodePoint) : Mode × Last × List Act :=
  match c with
  | .scalar '(' =>
    (.code, .operator, [.opens (if last.settled = .condition then .condition else .round)])
  | .scalar '[' => (.code, .operator, [.opens .square])
  | .scalar '\x7b' => (.code, .operator, [.opens .brace])
  | .scalar ')' => (.code, .operand, [.closes .round])
  | .scalar ']' => (.code, .operand, [.closes .square])
  | .scalar '\x7d' => (.code, .either, [.closes .brace])
  | .scalar ',' => (.code, .operator, [.comma])
  | .scalar '"' => (.string '"' false, .operand, [.item])
  | .scalar '\'' => (.string '\'' false, .operand, [.item])
  | .scalar '`' => (.template false false, .operand, [.item])
  | .scalar '/' => (.slash, last, [])
  | .scalar '.' => (.code, .dot, [.item])
  | .scalar '+' => (.code, last.signed '+', [.item])
  | .scalar '-' => (.code, last.signed '-', [.item])
  | c =>
    if isBlank c then (.code, last.settled, [])
    else if c.all isOperator then (.code, .operator, [.item])
    else (.code, last.letter c, [.item])

/-- A code point of a regular expression. -/
def scanPattern (escaped inClass : Bool) (last : Last) (c : CodePoint) : Mode × Last :=
  if escaped then (.pattern false inClass, last)
  else match c with
    | .scalar '\\' => (.pattern true inClass, last)
    | .scalar '[' => (.pattern false true, last)
    | .scalar ']' => (.pattern false false, last)
    | .scalar '/' => if inClass then (.pattern false true, last) else (.code, .operand)
    | _ => (.pattern false inClass, last)

/-- A code point, with what it does to the open brackets. -/
def scan (last : Last) (c : CodePoint) : Mode → Mode × Last × List Act
  | .code => scanCode last c
  | .slash =>
    if c = .scalar '/' then (.lineComment, last, [])
    else if c = .scalar '*' then (.blockComment false, last, [])
    else match last.isOperand? with
      | some true =>
        let (mode, last, acts) := scanCode .operator c
        (mode, last, .item :: acts)
      | some false =>
        let (mode, last) := scanPattern false false .operand c
        (mode, last, [.item])
      | none => (.code, last, [.stuck])
  | .lineComment => if endsLine c then (.code, last.settled, []) else (.lineComment, last, [])
  | .blockComment star =>
    if star && c = .scalar '/' then (.code, last.settled, [])
    else (.blockComment (c = .scalar '*'), last, [])
  | .string quote escaped =>
    if escaped then (.string quote false, last, [])
    else if c = quote then (.code, .operand, [])
    else (.string quote (c = .scalar '\\'), last, [])
  | .template escaped dollar =>
    if escaped then (.template false false, last, [])
    else if c = .scalar '`' then (.code, .operand, [])
    else if dollar && c = .scalar '\x7b' then (.code, .operator, [.opens .substitution])
    else (.template (c = .scalar '\\') (c = .scalar '$'), last, [])
  | .pattern escaped inClass =>
    let (mode, last) := scanPattern escaped inClass last c
    (mode, last, [])

/-! ## Open brackets -/

/-- An open bracket, the commas in it, and whether no item has begun since the last of them. -/
structure Frame where
  bracket : Bracket
  commas : Nat
  fresh : Bool
  deriving DecidableEq

/-- The number of items in a bracket. A comma at the end begins no item. -/
def Frame.items (frame : Frame) : Nat := frame.commas + if frame.fresh then 0 else 1

/-- How far a text has been read: the open brackets, the innermost one first, and the numbers of
items in the round brackets that have been closed. -/
structure State where
  mode : Mode
  last : Last
  frames : List Frame
  groups : List Nat
  deriving DecidableEq

/-- What becomes of the open brackets; nothing if a bracket is closed that is not open. -/
def State.perform (s : State) (act : Act) : Option State :=
  match act, s.frames with
  | .item, frame :: outer => some { s with frames := { frame with fresh := false } :: outer }
  | .comma, frame :: outer =>
    some { s with frames := { frame with commas := frame.commas + 1, fresh := true } :: outer }
  | .opens bracket, frame :: outer =>
    some { s with frames := ⟨bracket, 0, true⟩ :: { frame with fresh := false } :: outer }
  | .closes bracket, frame :: around :: outer =>
    if frame.bracket = bracket then
      let groups := if bracket = .round then s.groups ++ [frame.items] else s.groups
      some { s with frames := around :: outer, groups }
    else if bracket = .round ∧ frame.bracket = .condition then
      some { s with last := .operator, frames := around :: outer,
                    groups := s.groups ++ [frame.items] }
    else if bracket = .brace ∧ frame.bracket = .substitution then
      some { s with mode := .template false false, frames := around :: outer }
    else none
  | _, _ => none

/-- One code point. -/
def step (s : State) (c : CodePoint) : Option State :=
  let scanned := scan s.last c s.mode
  scanned.2.2.foldlM State.perform { s with mode := scanned.1, last := scanned.2.1 }

/-- A text, one code point after the other. -/
def run (s : State) (text : Text) : Option State := text.foldlM step s

/-- The commas of a text outside all brackets, and the numbers of items in its round brackets in the
order in which they are closed; nothing unless the text ends where an item may end. -/
def read? (text : Text) : Option (Nat × List Nat) :=
  match run ⟨.code, .operator, [⟨.round, 0, true⟩], []⟩ text with
  | some ⟨.code, _, [⟨.round, commas, false⟩], groups⟩ => some (commas, groups)
  | _ => none

@[simp] theorem run_nil (s : State) : run s [] = some s := rfl

theorem run_cons (s : State) (c : CodePoint) (text : Text) :
    run s (c :: text) = (step s c).bind (run · text) := rfl

theorem run_append (s : State) (text more : Text) :
    run s (text ++ more) = (run s text).bind (run · more) := List.foldlM_append

/-! ## Reading inside brackets -/

/-- The outermost bracket of a text inside another bracket. -/
def Frame.inside (host bottom : Frame) : Frame where
  bracket := host.bracket
  commas := host.commas + bottom.commas
  fresh := bottom.fresh && (bottom.commas ≠ 0 || host.fresh)

/-- The second state is the first one inside other brackets. -/
structure Inside (host : Frame) (outer : List Frame) (groups : List Nat) (s t : State) : Prop where
  mode : t.mode = s.mode
  last : t.last = s.last
  groups : t.groups = groups ++ s.groups
  frames : ∃ inner bottom, s.frames = inner ++ [bottom] ∧
    t.frames = inner ++ host.inside bottom :: outer

section

variable {host : Frame} {outer : List Frame} {groups : List Nat} {s s' t : State}

/-- A bracket that stands in another one of the text is closed inside other brackets as well. -/
theorem Inside.closes {bracket : Bracket} {mode : Mode} {last : Last} {frame bottom : Frame}
    {inner : List Frame} {closed : List Nat}
    (done : State.perform ⟨mode, last, frame :: (inner ++ [bottom]), closed⟩ (.closes bracket) =
      some s') :
    ∃ t', State.perform ⟨mode, last, frame :: (inner ++ host.inside bottom :: outer),
        groups ++ closed⟩ (.closes bracket) = some t' ∧ Inside host outer groups s' t' := by
  obtain ⟨around, rest, split⟩ : ∃ around rest, inner ++ [bottom] = around :: rest :=
    List.exists_cons_of_ne_nil (by simp)
  obtain ⟨around', rest', split'⟩ : ∃ around rest,
      inner ++ host.inside bottom :: outer = around :: rest :=
    List.exists_cons_of_ne_nil (by simp)
  simp only [State.perform, split, split'] at done ⊢
  split at done
  · obtain rfl := Option.some.inj done
    refine ⟨_, if_pos ‹_›, rfl, rfl, ?_, inner, bottom, split.symm, split'.symm⟩
    dsimp only
    split
    · exact List.append_assoc ..
    · rfl
  · rw [if_neg ‹_›]
    split at done
    · obtain rfl := Option.some.inj done
      refine ⟨_, if_pos ‹_›, rfl, rfl, ?_, inner, bottom, split.symm, split'.symm⟩
      exact List.append_assoc ..
    · rw [if_neg ‹_›]
      split at done
      · obtain rfl := Option.some.inj done
        exact ⟨_, if_pos ‹_›, rfl, rfl, rfl, inner, bottom, split.symm, split'.symm⟩
      · cases done

/-- What an act does to the brackets of a text it does inside other brackets as well. If the
innermost bracket is one of the text, both states do the same to it; otherwise it is the outermost
bracket of the text, whose commas and items are counted for the host. -/
theorem Inside.perform {act : Act} (h : Inside host outer groups s t)
    (done : s.perform act = some s') :
    ∃ t', t.perform act = some t' ∧ Inside host outer groups s' t' := by
  obtain ⟨mode, last, frames, closed⟩ := s
  obtain ⟨mode', last', frames', closed'⟩ := t
  obtain ⟨hm, hl, hg, inner, bottom, hs, ht⟩ := h
  dsimp only at hm hl hg hs ht
  subst hm hl hg hs ht
  cases inner with
  | nil =>
    -- The outermost bracket is the innermost one as well, and cannot be closed.
    cases act with
    | item =>
      obtain rfl := Option.some.inj done
      exact ⟨_, rfl, rfl, rfl, rfl, [], _, rfl, rfl⟩
    | comma =>
      obtain rfl := Option.some.inj done
      refine ⟨_, rfl, rfl, rfl, rfl, [], _, rfl, ?_⟩
      simp [Frame.inside, Nat.add_assoc]
    | opens bracket =>
      obtain rfl := Option.some.inj done
      exact ⟨_, rfl, rfl, rfl, rfl, [_], _, rfl, rfl⟩
    | closes bracket => cases done
    | stuck => cases done
  | cons frame inner =>
    cases act with
    | item =>
      obtain rfl := Option.some.inj done
      exact ⟨_, rfl, rfl, rfl, rfl, _ :: inner, bottom, rfl, rfl⟩
    | comma =>
      obtain rfl := Option.some.inj done
      exact ⟨_, rfl, rfl, rfl, rfl, _ :: inner, bottom, rfl, rfl⟩
    | opens bracket =>
      obtain rfl := Option.some.inj done
      exact ⟨_, rfl, rfl, rfl, rfl, _ :: _ :: inner, bottom, rfl, rfl⟩
    | closes bracket => exact closes done
    | stuck => cases done

/-- The same for several acts. -/
theorem Inside.performs {acts : List Act} (h : Inside host outer groups s t)
    (done : acts.foldlM State.perform s = some s') :
    ∃ t', acts.foldlM State.perform t = some t' ∧ Inside host outer groups s' t' := by
  induction acts generalizing s t with
  | nil =>
    obtain rfl := Option.some.inj done
    exact ⟨t, rfl, h⟩
  | cons act acts ih =>
    obtain ⟨next, first, rest⟩ := Option.bind_eq_some_iff.1 done
    obtain ⟨next', first', inside⟩ := h.perform first
    obtain ⟨t', rest', inside⟩ := ih inside rest
    exact ⟨t', Option.bind_eq_some_iff.2 ⟨next', first', rest'⟩, inside⟩

theorem Inside.step {c : CodePoint} (h : Inside host outer groups s t) (done : step s c = some s') :
    ∃ t', Script.step t c = some t' ∧ Inside host outer groups s' t' := by
  have same : scan t.last c t.mode = scan s.last c s.mode := by rw [h.last, h.mode]
  simp only [Script.step, same]
  have inside : Inside host outer groups
      { s with mode := (scan s.last c s.mode).1, last := (scan s.last c s.mode).2.1 }
      { t with mode := (scan s.last c s.mode).1, last := (scan s.last c s.mode).2.1 } :=
    ⟨rfl, rfl, h.groups, h.frames⟩
  exact inside.performs done

/-- A text that is read by itself is read in the same way inside other brackets. -/
theorem Inside.run {text : Text} (h : Inside host outer groups s t) (done : run s text = some s') :
    ∃ t', Script.run t text = some t' ∧ Inside host outer groups s' t' := by
  induction text generalizing s t with
  | nil =>
    obtain rfl := Option.some.inj done
    exact ⟨t, rfl, h⟩
  | cons c text ih =>
    obtain ⟨next, first, rest⟩ := Option.bind_eq_some_iff.1 done
    obtain ⟨next', first', inside⟩ := h.step first
    obtain ⟨t', rest', inside⟩ := ih inside rest
    exact ⟨t', Option.bind_eq_some_iff.2 ⟨next', first', rest'⟩, inside⟩

end

/-- The text is an item, or several of them between commas, if it is read after `start`: so many
commas stand outside all brackets, and so many items in the round brackets that it closes. -/
def Reads (text : Text) (start : Last) (commas : Nat) (groups : List Nat) : Prop :=
  ∃ last, run ⟨.code, start, [⟨.round, 0, true⟩], []⟩ text =
    some ⟨.code, last, [⟨.round, commas, false⟩], groups⟩

/-- `Reads` is what `read?` finds where an operand may begin. -/
theorem read?_eq_some {text : Text} {commas : Nat} {groups : List Nat} :
    read? text = some (commas, groups) ↔ Reads text .operator commas groups := by
  rw [read?, Reads]
  constructor
  · intro h
    split at h
    · next last commas groups done =>
      obtain ⟨rfl, rfl⟩ := Prod.mk.inj (Option.some.inj h)
      exact ⟨last, done⟩
    · cases h
  · rintro ⟨last, done⟩
    rw [done]

/-- What is read as a whole by itself is read alike inside brackets. -/
theorem Reads.inside {text : Text} {start : Last} {commas : Nat} {groups : List Nat}
    (h : Reads text start commas groups) (frame : Frame) (outer : List Frame) (before : List Nat) :
    ∃ last, run ⟨.code, start, frame :: outer, before⟩ text = some ⟨.code, last,
      { frame with commas := frame.commas + commas, fresh := false } :: outer,
      before ++ groups⟩ := by
  obtain ⟨last, done⟩ := h
  have bare : frame.inside ⟨.round, 0, true⟩ = frame := by simp [Frame.inside]
  have inside : Inside frame outer before ⟨.code, start, [⟨.round, 0, true⟩], []⟩
      ⟨.code, start, frame :: outer, before⟩ :=
    ⟨rfl, rfl, (List.append_nil _).symm, [], _, rfl, by rw [bare]; rfl⟩
  obtain ⟨⟨mode, last', frames, closed⟩, done', hm, hl, hg, inner, bottom, hs, ht⟩ :=
    inside.run done
  obtain ⟨rfl, rfl⟩ : inner = [] ∧ bottom = ⟨.round, commas, false⟩ := by
    cases inner with
    | nil => exact ⟨rfl, (List.cons.inj hs).1.symm⟩
    | cons => simp at hs
  dsimp only at hm hl hg ht
  subst hm hl hg ht
  exact ⟨_, done'⟩

/-- A code point that always belongs to an item and begins nothing else. -/
def IsTokenPart (c : CodePoint) : Prop :=
  ∀ last, ∃ last', scanCode last c = (.code, last', [.item])

/-- A token of parts that always belong to an item is one item. -/
theorem run_token {text : Text} (h : ∀ c ∈ text, IsTokenPart c) (ne : text ≠ []) (start : Last)
    (frame : Frame) (outer : List Frame) (groups : List Nat) :
    ∃ last, run ⟨.code, start, frame :: outer, groups⟩ text =
      some ⟨.code, last, { frame with fresh := false } :: outer, groups⟩ := by
  induction text generalizing start frame with
  | nil => exact absurd rfl ne
  | cons c text ih =>
    obtain ⟨part, others⟩ := List.forall_mem_cons.1 h
    obtain ⟨last, scanned⟩ := part start
    have first : step ⟨.code, start, frame :: outer, groups⟩ c =
        some ⟨.code, last, { frame with fresh := false } :: outer, groups⟩ := by
      simp only [step, scan, scanned]
      rfl
    rw [run_cons, first, Option.bind_some]
    cases text with
    | nil => exact ⟨last, rfl⟩
    | cons next text => exact ih others (by simp) last { frame with fresh := false }

theorem reads_token {text : Text} (h : ∀ c ∈ text, IsTokenPart c) (ne : text ≠ []) (start : Last) :
    Reads text start 0 [] :=
  run_token h ne start _ _ _

end ElementWrapper.Script
