import ElementWrapper.Proofs.Source.Tokens

/-!
The tokens of the grammar, as a script reads them.
-/

namespace ElementWrapper.Source

open Script Literal

/-! ## Words -/

/-- Whatever may stand in a word is no blank and no operator, and opens nothing. -/
theorem isTokenPart_of_isWordPart {c : Char} (h : isWordPart c) : IsTokenPart (.scalar c) := by
  simp only [isWordPart, Bool.and_eq_true, Bool.not_eq_true', decide_eq_true_eq] at h
  obtain ⟨⟨visible, space⟩, mark⟩ := h
  have outside {d : Char} (mem : d ∈ punctuation) : CodePoint.scalar c ≠ .scalar d := by
    rintro ⟨⟩
    rw [List.contains_iff_mem.2 mem] at mark
    cases mark
  have notBlank : ¬ isBlank (.scalar c) := by
    simp only [isBlank, isSpace, CodePoint.toNat] at space ⊢
    simp at space ⊢
    omega
  have notOperator : ¬ (CodePoint.scalar c).all isOperator := by
    intro operator
    have within : ∀ d ∈ ['*', '%', '=', '<', '>', '!', '?', ':', ';', '&', '|', '^', '~', '@',
        '\\'], d ∈ punctuation := by simp [punctuation]
    exact outside (within c (List.contains_iff_mem.1 operator)) rfl
  intro last
  refine ⟨last.letter (.scalar c), ?_⟩
  unfold scanCode
  split
  all_goals first
    | exact absurd ‹_› (outside (by decide))
    | rw [if_neg notBlank, if_neg notOperator]

theorem isTokenPart_of_isHexDigit {c : Char} (h : isHexDigit c) : IsTokenPart (.scalar c) := by
  refine isTokenPart_of_isNamePart ?_
  simp only [isHexDigit, Bool.or_eq_true, Bool.and_eq_true, decide_eq_true_eq] at h
  simp only [CodePoint.all, isNamePart, isNameStart, Char.isAlpha, Char.isUpper, Char.isLower,
    Bool.or_eq_true, Bool.and_eq_true, decide_eq_true_eq, ge_iff_le]
  obtain (digit | ⟨least, most⟩) | ⟨least, most⟩ := h
  · exact .inr digit
  · exact .inl (.inl (.inl (.inr ⟨least, Char.le_trans most (by decide)⟩)))
  · exact .inl (.inl (.inl (.inl ⟨least, Char.le_trans most (by decide)⟩)))

theorem ofChars_cons (c : Char) (rest : List Char) :
    Text.ofChars (c :: rest) = .scalar c :: Text.ofChars rest := rfl

theorem ofChars_append (first second : List Char) :
    Text.ofChars (first ++ second) = Text.ofChars first ++ Text.ofChars second := List.map_append

/-- An escape is written with digits, which may stand in braces. -/
theorem take_codePointEscape {rest : List Char} {n : Nat} (h : codePointEscape rest = some n) :
    ∃ digits, digits ≠ [] ∧ (∀ c ∈ digits, isHexDigit c) ∧
      (rest.take n = digits ∨ rest.take n = ['\x7b'] ++ digits ++ ['\x7d']) := by
  unfold codePointEscape at h
  split at h
  · next rest =>
    dsimp only at h
    split at h
    · cases h
    · next some =>
      split at h
      · next after closes =>
        obtain rfl := Option.some.inj h
        refine ⟨rest.takeWhile isHexDigit, by simpa using some,
          fun c mem => List.mem_takeWhile_imp mem, .inr ?_⟩
        have whole : rest = rest.takeWhile isHexDigit ++ '\x7d' :: after := by
          conv_lhs => rw [← List.take_append_drop (rest.takeWhile isHexDigit).length rest, closes,
            ← List.prefix_iff_eq_take.1 (List.takeWhile_prefix _)]
        generalize rest.takeWhile isHexDigit = digits at whole
        subst whole
        simp [List.take_append]
      · cases h
  · split at h
    · next four =>
      obtain rfl := Option.some.inj h
      rw [Bool.and_eq_true, List.all_eq_true, decide_eq_true_eq] at four
      refine ⟨rest.take 4, ?_, four.1, .inl rfl⟩
      exact List.ne_nil_of_length_pos (by rw [List.length_take, min_eq_left four.2]; decide)
    · cases h

/-- An escape belongs to an item. -/
theorem run_codePointEscape {rest : List Char} {n : Nat} (h : codePointEscape rest = some n)
    (start : Last) (frame : Frame) (outer : List Frame) (groups : List Nat) :
    ∃ last, run ⟨.code, start, frame :: outer, groups⟩ (Text.ofChars (rest.take n)) =
      some ⟨.code, last, { frame with fresh := false } :: outer, groups⟩ := by
  obtain ⟨digits, some, hex, bare | braced⟩ := take_codePointEscape h
  all_goals
    have run_digits := run_token
      (List.forall_mem_map.2 fun c mem => isTokenPart_of_isHexDigit (hex c mem))
      (by simpa using some)
  · rw [bare]
    exact run_digits start frame outer groups
  · obtain ⟨last, inner⟩ :=
      run_digits .operator ⟨.brace, 0, true⟩ ({ frame with fresh := false } :: outer) groups
    have opened : run ⟨.code, start, frame :: outer, groups⟩ (Text.ofChars ['\x7b']) =
      Option.some ⟨.code, .operator, ⟨.brace, 0, true⟩ :: { frame with fresh := false } :: outer,
        groups⟩ := rfl
    refine ⟨.either, ?_⟩
    rw [braced, ofChars_append, ofChars_append, run_append, run_append, opened, Option.bind_some]
    change ((run _ (digits.map _)).bind _) = _
    rw [inner]
    rfl

/-- A word that goes on is part of an item. -/
theorem run_wordTail (fuel : Nat) (rest : List Char) (start : Last) (frame : Frame)
    (outer : List Frame) (groups : List Nat) :
    ∃ last, run ⟨.code, start, frame :: outer, groups⟩
        (Text.ofChars (rest.take (wordTail fuel rest))) =
      some ⟨.code, last,
        { frame with fresh := frame.fresh && wordTail fuel rest = 0 } :: outer, groups⟩ := by
  fun_induction wordTail fuel rest generalizing start frame with
  | case2 fuel rest n escaped ih =>
    -- The word goes on with an escape.
    have opened : run ⟨.code, start, frame :: outer, groups⟩ (Text.ofChars ['\\', 'u']) =
      some ⟨.code, .word ['u'], { frame with fresh := false } :: outer, groups⟩ := rfl
    obtain ⟨last, escape⟩ :=
      run_codePointEscape escaped (.word ['u']) { frame with fresh := false } outer groups
    obtain ⟨last', later⟩ := ih last { frame with fresh := false }
    have split : ('\\' :: 'u' :: rest).take (n + 2 + wordTail fuel (rest.drop n)) =
        ['\\', 'u'] ++ (rest.take n ++ (rest.drop n).take (wordTail fuel (rest.drop n))) := by
      rw [← List.take_add, Nat.add_right_comm]
      rfl
    refine ⟨last', ?_⟩
    rw [split, ofChars_append, ofChars_append, run_append, opened, Option.bind_some, run_append,
      escape, Option.bind_some, later]
    simp
  | case4 fuel c rest _ part ih =>
    -- It goes on with a letter, a digit or the like.
    obtain ⟨last, first⟩ := run_token (List.forall_mem_singleton.2 (isTokenPart_of_isWordPart part))
      nofun start frame outer groups
    obtain ⟨last', later⟩ := ih last { frame with fresh := false }
    have split : (c :: rest).take (1 + wordTail fuel rest) =
        [c] ++ rest.take (wordTail fuel rest) := by
      rw [Nat.add_comm]
      rfl
    refine ⟨last', ?_⟩
    rw [split, ofChars_append, run_append]
    simp only [Text.ofChars, List.map_cons, List.map_nil] at first later ⊢
    rw [first, Option.bind_some, later]
    simp
  | _ => exact ⟨start, by simp [Text.ofChars]⟩

/-- A word is read as one item. -/
theorem reads_word {rest : List Char} (some : 0 < wordLength rest) (start : Last) :
    Reads (Text.ofChars (rest.take (wordLength rest))) start 0 [] := by
  have tail (fuel : Nat) (some : 0 < wordTail fuel rest) :
      Reads (Text.ofChars (rest.take (wordTail fuel rest))) start 0 [] := by
    obtain ⟨last, done⟩ := run_wordTail fuel rest start ⟨.round, 0, true⟩ [] []
    refine ⟨last, ?_⟩
    rw [done]
    simp [Nat.pos_iff_ne_zero.1 some]
  unfold wordLength at some ⊢
  split at some
  · split at some
    · cases some
    · rw [if_neg ‹_›]
      exact tail _ some
  · cases some

theorem isName_word {rest : List Char} (some : 0 < wordLength rest) :
    IsName (Text.ofChars (rest.take (wordLength rest))) :=
  ⟨reads_word some .operator, reads_word some .dot⟩

/-- A word with a number sign before it is a name as well. -/
theorem isName_private {rest : List Char} (some : 0 < wordLength rest) :
    IsName (Text.ofChars (('#' :: rest).take (wordLength rest + 1))) := by
  have reads (start : Last) :
      Reads (.scalar '#' :: Text.ofChars (rest.take (wordLength rest))) start 0 [] := by
    have sign : step ⟨.code, start, [⟨.round, 0, true⟩], []⟩ (.scalar '#') =
        Option.some ⟨.code, start.letter (.scalar '#'), [⟨.round, 0, false⟩], []⟩ := rfl
    obtain ⟨last, word⟩ :=
      (reads_word some (start.letter (.scalar '#'))).inside ⟨.round, 0, false⟩ [] []
    refine ⟨last, ?_⟩
    rw [run_cons, sign, Option.bind_some, word]
    rfl
  exact ⟨reads .operator, reads .dot⟩

/-! ## Numbers -/

/-- Every character belongs to an item and begins nothing else. -/
def IsToken (text : List Char) : Prop := ∀ c ∈ text, IsTokenPart (.scalar c)

theorem isToken_nil : IsToken [] := nofun

theorem isToken_cons {c : Char} {rest : List Char} :
    IsToken (c :: rest) ↔ IsTokenPart (.scalar c) ∧ IsToken rest := List.forall_mem_cons

theorem isToken_take_add {rest : List Char} {m n : Nat} :
    IsToken (rest.take (m + n)) ↔ IsToken (rest.take m) ∧ IsToken ((rest.drop m).take n) := by
  rw [List.take_add]
  exact List.forall_mem_append

theorem isToken_head {rest : List Char} {c : Char} (part : IsTokenPart (.scalar c))
    (head : rest.head? = some c) : IsToken (rest.take 1) := by
  obtain ⟨later, rfl⟩ := List.head?_eq_some_iff.1 head
  exact List.forall_mem_singleton.2 part

theorem isTokenPart_of_isDigit {c : Char} (h : c.isDigit) : IsTokenPart (.scalar c) :=
  isTokenPart_of_isHexDigit (by simp [isHexDigit, h])

theorem isToken_digits {isDigit : Char → Bool} (h : ∀ c, isDigit c → IsTokenPart (.scalar c))
    (rest : List Char) : IsToken (rest.take (digitsLength isDigit rest)) := by
  fun_induction digitsLength isDigit rest with
  | case2 c digit | case4 c rest digit => exact List.forall_mem_singleton.2 (h c digit)
  | case5 c rest digit more some ih =>
    -- More digits come behind an underscore.
    exact isToken_cons.2 ⟨h c digit, isToken_cons.2 ⟨isTokenPart_of_isNamePart rfl, ih⟩⟩
  | case7 c rest _ _ digit ih => exact isToken_cons.2 ⟨h c digit, ih⟩
  | _ => exact isToken_nil

theorem isToken_decimals (rest : List Char) :
    IsToken (rest.take (digitsLength Char.isDigit rest)) :=
  isToken_digits (fun _ => isTokenPart_of_isDigit) rest

/-- An exponent is read within its number: its sign is the only character that is neither a letter
nor a digit. -/
theorem isToken_exponent (rest : List Char) : IsToken (rest.take (exponentLength rest)) := by
  unfold exponentLength
  split
  · next e rest =>
    split
    · next mark =>
      have letter : IsTokenPart (.scalar e) := by
        simp only [Bool.or_eq_true, decide_eq_true_eq] at mark
        obtain rfl | rfl := mark
        · exact isTokenPart_of_isNamePart rfl
        · exact isTokenPart_of_isNamePart rfl
      have sign : IsToken (rest.take
          (if rest.head? = some '+' || rest.head? = some '-' then 1 else 0)) := by
        split
        · next signed =>
          simp only [Bool.or_eq_true, decide_eq_true_eq] at signed
          obtain head | head := signed
          · exact isToken_head (fun last => ⟨last.signed '+', rfl⟩) head
          · exact isToken_head (fun last => ⟨last.signed '-', rfl⟩) head
        · exact isToken_nil
      generalize (if rest.head? = some '+' || rest.head? = some '-' then 1 else 0) = n at sign ⊢
      dsimp only
      split
      · exact isToken_nil
      · refine isToken_cons.2 ⟨letter, ?_⟩
        rw [Nat.add_comm, isToken_take_add]
        exact ⟨sign, isToken_decimals _⟩
    · exact isToken_nil
  · exact isToken_nil

theorem isTokenPart_dot : IsTokenPart (.scalar '.') := fun _ => ⟨.dot, rfl⟩

/-- A decimal number is read as one item, with its point and its exponent. -/
theorem isToken_decimal (rest : List Char) : IsToken (rest.take (decimalLength rest)) := by
  -- The digits after a point, with the exponent after them.
  have fraction (rest : List Char) : IsToken (rest.take (digitsLength Char.isDigit rest +
      exponentLength (rest.drop (digitsLength Char.isDigit rest)))) :=
    isToken_take_add.2 ⟨isToken_decimals rest, isToken_exponent _⟩
  unfold decimalLength
  split
  · next rest =>
    dsimp only
    split
    · exact isToken_nil
    · rw [Nat.add_right_comm]
      exact isToken_cons.2 ⟨isTokenPart_dot, fraction rest⟩
  · have whole := isToken_decimals rest
    dsimp only
    split
    · exact isToken_nil
    · split
      · next head =>
        exact isToken_take_add.2 ⟨whole, isToken_head (isTokenPart_of_isNamePart rfl) head⟩
      · split
        · exact whole
        · split
          · next more after =>
            rw [Nat.add_assoc, Nat.add_assoc, isToken_take_add, after, Nat.add_comm 1]
            exact ⟨whole, isToken_cons.2 ⟨isTokenPart_dot, fraction more⟩⟩
          · exact isToken_take_add.2 ⟨whole, isToken_exponent _⟩

theorem isTokenPart_of_eq {c lower upper : Char} (h : c = lower || c = upper)
    (lowers : (CodePoint.scalar lower).all isNamePart)
    (uppers : (CodePoint.scalar upper).all isNamePart) : IsTokenPart (.scalar c) := by
  simp only [Bool.or_eq_true, decide_eq_true_eq] at h
  obtain rfl | rfl := h
  · exact isTokenPart_of_isNamePart lowers
  · exact isTokenPart_of_isNamePart uppers

/-- The mark of a base is a letter, and its digits are letters or digits. -/
theorem isTokenPart_of_basedDigit? {mark : Char} {isDigit : Char → Bool}
    (h : basedDigit? mark = some isDigit) :
    IsTokenPart (.scalar mark) ∧ ∀ c, isDigit c → IsTokenPart (.scalar c) := by
  unfold basedDigit? at h
  split at h
  · next hexadecimal =>
    obtain rfl := Option.some.inj h
    exact ⟨isTokenPart_of_eq hexadecimal rfl rfl, fun _ => isTokenPart_of_isHexDigit⟩
  · split at h
    · next binary =>
      obtain rfl := Option.some.inj h
      exact ⟨isTokenPart_of_eq binary rfl rfl, fun _ digit => isTokenPart_of_eq digit rfl rfl⟩
    · split at h
      · next octal =>
        obtain rfl := Option.some.inj h
        refine ⟨isTokenPart_of_eq octal rfl rfl, fun c digit => isTokenPart_of_isDigit ?_⟩
        simp only [Bool.and_eq_true, decide_eq_true_eq] at digit
        simp only [Char.isDigit, Bool.and_eq_true, decide_eq_true_eq]
        exact ⟨digit.1, Char.le_trans digit.2 (by decide)⟩
      · cases h

/-- A number is read as one item, whatever its base. -/
theorem isToken_number (rest : List Char) : IsToken (rest.take (numberLength rest)) := by
  unfold numberLength
  split
  · next mark digits =>
    dsimp only
    split
    · next isDigit based =>
      obtain ⟨letter, part⟩ := isTokenPart_of_basedDigit? based
      split
      · exact isToken_decimal _
      · rw [Nat.add_right_comm]
        refine isToken_cons.2 ⟨isTokenPart_of_isNamePart rfl, isToken_cons.2 ⟨letter, ?_⟩⟩
        refine isToken_take_add.2 ⟨isToken_digits part digits, ?_⟩
        split
        · next head => exact isToken_head (isTokenPart_of_isNamePart rfl) head
        · exact isToken_nil
    · rw [if_pos rfl]
      exact isToken_decimal _
  · exact isToken_decimal rest

theorem reads_number {rest : List Char} (some : 0 < numberLength rest) :
    Reads (Text.ofChars (rest.take (numberLength rest))) .operator 0 [] := by
  refine reads_token (List.forall_mem_map.2 (isToken_number rest)) ?_ .operator
  cases rest with
  | nil => cases some
  | cons c rest => simp [Nat.pos_iff_ne_zero.1 some]

/-! ## Strings -/

/-- A character of an escape after its first one. -/
def isEscapePart (c : Char) : Bool := isHexDigit c || c = '\x7b' || c = '\x7d'

/-- What follows a backslash is the end of a line, or any character with digits after it. -/
theorem take_escapeLength {rest : List Char} {n : Nat} (h : escapeLength rest = some n) :
    rest.take n = ['\r', '\n'] ∨ ∃ c tail, rest.take n = c :: tail ∧
      (c = '\r' → (rest.drop n).head? ≠ some '\n') ∧ ∀ d ∈ tail, isEscapePart d := by
  unfold escapeLength at h
  split at h
  · cases h
  · obtain rfl := Option.some.inj h
    exact .inl rfl
  · next rest =>
    split at h
    · next two =>
      obtain rfl := Option.some.inj h
      rw [Bool.and_eq_true, List.all_eq_true] at two
      exact .inr ⟨'x', rest.take 2, rfl, by simp, fun c mem => by simp [isEscapePart, two.1 c mem]⟩
    · cases h
  · next rest =>
    obtain ⟨n, escape, rfl⟩ := Option.map_eq_some_iff.1 h
    refine .inr ⟨'u', rest.take n, rfl, by simp, fun c mem => ?_⟩
    obtain ⟨digits, -, hex, bare | braced⟩ := take_codePointEscape escape
    · simp [isEscapePart, hex c (bare ▸ mem)]
    · rw [braced] at mem
      simp only [List.mem_append, List.mem_singleton] at mem
      obtain (rfl | digit) | rfl := mem
      · rfl
      · simp [isEscapePart, hex c digit]
      · rfl
  · next c rest single _ _ =>
    dsimp only at h
    split at h
    · obtain rfl := Option.some.inj h
      generalize digits : List.takeWhile _ ((c :: rest).take 3) = run
      have own : (c :: rest).take run.length = run := by
        subst digits
        exact (List.prefix_iff_eq_take.1
          ((List.takeWhile_prefix _).trans (List.take_prefix 3 _))).symm
      have octal : ∀ d ∈ run, d.isDigit := by
        intro d mem
        subst digits
        have digit := List.mem_takeWhile_imp mem
        simp only [Bool.and_eq_true, decide_eq_true_eq] at digit
        simp only [Char.isDigit, Bool.and_eq_true, decide_eq_true_eq]
        exact ⟨digit.1, Char.le_trans digit.2 (by decide)⟩
      obtain ⟨d, tail, rfl⟩ := List.exists_cons_of_ne_nil (l := run) (by
        subst digits
        simp [*])
      refine .inr ⟨d, tail, own, ?_, fun c mem => ?_⟩
      · rintro rfl
        exact absurd (octal '\r' List.mem_cons_self) (by decide)
      · simp [isEscapePart, isHexDigit, octal c (List.mem_cons_of_mem d mem)]
    · obtain rfl := Option.some.inj h
      refine .inr ⟨c, [], rfl, fun eq head => ?_, List.forall_mem_nil _⟩
      obtain ⟨later, rfl⟩ := List.head?_eq_some_iff.1 head
      exact single later eq rfl

theorem breaksLine_cons {c : CodePoint} (h : c ≠ .scalar '\\') (rest : Text) :
    breaksLine (c :: rest) = (c = .scalar '\n' || c = .scalar '\r' || breaksLine rest) := by
  rw [breaksLine]
  · rintro _ rfl
    exact absurd rfl h
  · rintro _ _ rfl
    exact absurd rfl h

theorem ne_of_isEscapePart {c d : Char} (part : isEscapePart c) (other : isEscapePart d = false) :
    c ≠ d := by
  rintro rfl
  cases part.symm.trans other

theorem breaksLine_escapeParts {parts : List Char} (h : ∀ c ∈ parts, isEscapePart c) (rest : Text) :
    breaksLine (Text.ofChars parts ++ rest) = breaksLine rest := by
  induction parts with
  | nil => rfl
  | cons c parts ih =>
    obtain ⟨part, others⟩ := List.forall_mem_cons.1 h
    have ne {d : Char} (other : isEscapePart d = false) : CodePoint.scalar c ≠ .scalar d :=
      fun same => ne_of_isEscapePart part other (CodePoint.scalar.inj same)
    rw [ofChars_cons, List.cons_append, breaksLine_cons (ne rfl), decide_eq_false (ne rfl),
      decide_eq_false (ne rfl), ih others]
    rfl

/-- An escape breaks no line. -/
theorem breaksLine_escape {rest : List Char} {n : Nat} (h : escapeLength rest = some n) (k : Nat) :
    breaksLine (.scalar '\\' :: Text.ofChars (rest.take (n + k))) =
      breaksLine (Text.ofChars ((rest.drop n).take k)) := by
  rw [List.take_add, ofChars_append]
  obtain lineEnd | ⟨c, tail, eq, single, parts⟩ := take_escapeLength h
  · rw [lineEnd]
    rfl
  · rw [eq, ofChars_cons, List.cons_append, breaksLine, breaksLine_escapeParts parts]
    rintro more ⟨⟩ head
    cases tail with
    | nil =>
      refine single rfl ?_
      generalize rest.drop n = after at head ⊢
      cases k with
      | zero => cases head
      | succ k =>
        cases after with
        | nil => cases head
        | cons d after =>
          obtain rfl := CodePoint.scalar.inj (List.cons.inj head).1
          rfl
    | cons d tail =>
      obtain ⟨part, -⟩ := List.forall_mem_cons.1 parts
      exact ne_of_isEscapePart part (d := '\n') rfl (CodePoint.scalar.inj (List.cons.inj head).1)

variable {quote : Char} {last : Last} {frames : List Frame} {groups : List Nat}

theorem step_string {c : Char} (inside : c ≠ quote) (plain : c ≠ '\\') :
    step ⟨.string (.scalar quote) false, last, frames, groups⟩ (.scalar c) =
      some ⟨.string (.scalar quote) false, last, frames, groups⟩ := by
  have ends : CodePoint.scalar c ≠ .scalar quote := fun same => inside (CodePoint.scalar.inj same)
  have escapes : decide (CodePoint.scalar c = .scalar '\\') = false :=
    decide_eq_false fun same => plain (CodePoint.scalar.inj same)
  simp only [step, scan, if_neg ends, escapes]
  rfl

theorem run_escapeParts (quoted : quote = '"' ∨ quote = '\'') {parts : List Char}
    (h : ∀ c ∈ parts, isEscapePart c) :
    run ⟨.string (.scalar quote) false, last, frames, groups⟩ (Text.ofChars parts) =
      some ⟨.string (.scalar quote) false, last, frames, groups⟩ := by
  have other : isEscapePart quote = false := by obtain rfl | rfl := quoted <;> rfl
  induction parts with
  | nil => rfl
  | cons c parts ih =>
    obtain ⟨part, others⟩ := List.forall_mem_cons.1 h
    rw [ofChars_cons, run_cons, step_string (ne_of_isEscapePart part other)
      (ne_of_isEscapePart part rfl), Option.bind_some, ih others]

/-- An escape does not end a string. -/
theorem run_escape (quoted : quote = '"' ∨ quote = '\'') {rest : List Char} {n : Nat}
    (h : escapeLength rest = some n) :
    run ⟨.string (.scalar quote) false, last, frames, groups⟩
        (.scalar '\\' :: Text.ofChars (rest.take n)) =
      some ⟨.string (.scalar quote) false, last, frames, groups⟩ := by
  obtain lineEnd | ⟨c, tail, eq, -, parts⟩ := take_escapeLength h
  · rw [lineEnd]
    obtain rfl | rfl := quoted <;> rfl
  · have opened :
        run ⟨.string (.scalar quote) false, last, frames, groups⟩ [.scalar '\\', .scalar c] =
          some ⟨.string (.scalar quote) false, last, frames, groups⟩ := by
      obtain rfl | rfl := quoted <;> rfl
    have split : CodePoint.scalar '\\' :: .scalar c :: Text.ofChars tail =
        [.scalar '\\', .scalar c] ++ Text.ofChars tail := rfl
    rw [eq, ofChars_cons, split, run_append, opened, Option.bind_some,
      run_escapeParts quoted parts]

theorem pos_of_quoteBelow {quote : Char} {fuel : Nat} {rest : List Char} {n : Nat}
    (h : quoteBelow quote fuel rest = some n) : 0 < n := by
  induction fuel generalizing rest n with
  | zero => cases h
  | succ fuel ih =>
    simp only [quoteBelow] at h
    split at h
    · obtain ⟨k, below, rfl⟩ := Option.map_eq_some_iff.1 h
      exact Nat.add_pos_left (ih below) _
    · split at h
      · obtain rfl := Option.some.inj h
        exact Nat.succ_pos _
      · cases h

/-- What is left of a string is read up to its closing quote, as long as it breaks no line. -/
theorem run_stringTail (quoted : quote = '"' ∨ quote = '\'') {fuel : Nat} {rest : List Char}
    {n : Nat} (h : stringTail quote fuel rest = some n)
    (unbroken : breaksLine (Text.ofChars (rest.take n)) = false) :
    run ⟨.string (.scalar quote) false, last, frames, groups⟩ (Text.ofChars (rest.take n)) =
      some ⟨.code, .operand, frames, groups⟩ := by
  fun_induction stringTail quote fuel rest generalizing n with
  | case1 | case2 => cases h
  | case3 fuel rest =>
    -- The quote that ends the string.
    obtain rfl := Option.some.inj h
    obtain rfl | rfl := quoted <;> rfl
  | case4 fuel rest ne ih =>
    -- An escape.
    obtain ⟨m, escape, later⟩ := Option.bind_eq_some_iff.1 h
    obtain ⟨k, tail, rfl⟩ := Option.map_eq_some_iff.1 later
    rw [← Nat.add_assoc, List.take_succ_cons, Nat.add_comm k, ofChars_cons] at unbroken ⊢
    rw [breaksLine_escape escape] at unbroken
    rw [List.take_add, ofChars_append, ← List.cons_append, run_append, run_escape quoted escape,
      Option.bind_some, ih m tail unbroken]
  | case5 fuel c rest ne plain newline =>
    -- A line end, which would break the line of the string.
    have other : CodePoint.scalar c ≠ .scalar '\\' := fun same => plain (CodePoint.scalar.inj same)
    obtain ⟨k, rfl⟩ := Nat.exists_eq_add_of_lt (pos_of_quoteBelow h)
    rw [Nat.zero_add, List.take_succ_cons, ofChars_cons, breaksLine_cons other] at unbroken
    simp only [Bool.or_eq_true, decide_eq_true_eq] at newline
    obtain rfl | rfl := newline <;> cases unbroken
  | case6 fuel c rest ne plain stays ih =>
    -- Any other character.
    obtain ⟨k, tail, rfl⟩ := Option.map_eq_some_iff.1 h
    have other : CodePoint.scalar c ≠ .scalar '\\' := fun same => plain (CodePoint.scalar.inj same)
    rw [List.take_succ_cons, ofChars_cons] at unbroken ⊢
    rw [breaksLine_cons other, Bool.or_eq_false_iff] at unbroken
    rw [run_cons, step_string ne plain, Option.bind_some, ih tail unbroken.2]

/-- A string is read as one item unless it breaks its line. -/
theorem reads_string {rest : List Char} {n : Nat} (h : stringLength rest = some n)
    (unbroken : breaksLine (Text.ofChars (rest.take n)) = false) :
    Reads (Text.ofChars (rest.take n)) .operator 0 [] := by
  unfold stringLength at h
  split at h
  · next quote rest =>
    split at h
    · next quoted =>
      simp only [Bool.or_eq_true, decide_eq_true_eq] at quoted
      obtain ⟨k, tail, rfl⟩ := Option.map_eq_some_iff.1 h
      rw [List.take_succ_cons, ofChars_cons] at unbroken ⊢
      have other : CodePoint.scalar quote ≠ .scalar '\\' := by obtain rfl | rfl := quoted <;> nofun
      rw [breaksLine_cons other, Bool.or_eq_false_iff] at unbroken
      have opened : step ⟨.code, .operator, [⟨.round, 0, true⟩], []⟩ (.scalar quote) =
          some ⟨.string (.scalar quote) false, .operand, [⟨.round, 0, false⟩], []⟩ := by
        obtain rfl | rfl := quoted <;> rfl
      exact ⟨.operand, by
        rw [run_cons, opened, Option.bind_some, run_stringTail quoted tail unbroken.2]⟩
    · cases h
  · cases h

/-! ## Comments -/

/-- The closing mark of a block comment comes at its end, and not before. -/
theorem afterBlock?_blockCommentTail {rest : List Char} {n : Nat}
    (h : blockCommentTail rest = some n) :
    ∃ body, rest.take n = body ++ ['*', '/'] ∧
      afterBlock? (Text.ofChars body ++ "*/") = some [] := by
  fun_induction blockCommentTail rest generalizing n with
  | case1 =>
    obtain rfl := Option.some.inj h
    exact ⟨[], rfl, rfl⟩
  | case2 c rest other ih =>
    obtain ⟨k, tail, rfl⟩ := Option.map_eq_some_iff.1 h
    obtain ⟨body, eq, after⟩ := ih tail
    refine ⟨c :: body, by rw [List.take_succ_cons, eq]; rfl, ?_⟩
    rw [ofChars_cons, List.cons_append, afterBlock?, after]
    rintro more ⟨⟩ next
    cases body with
    | nil => cases next
    | cons d body =>
      obtain rfl := CodePoint.scalar.inj (List.cons.inj next).1
      cases rest with
      | nil => cases tail
      | cons e rest =>
        cases k with
        | zero => cases eq
        | succ k =>
          obtain rfl := (List.cons.inj eq).1
          exact other rest rfl rfl
  | case3 => cases h

/-- A comment of the grammar ends where it should: a line comment has no line end in it, and a block
comment closes at its end and not before. -/
theorem isClosed_comment {d : Document} {tree : Tree} {rest : List Char} {n : Nat}
    (h : commentLength rest = some n) (text : d.text tree = Text.ofChars (rest.take n)) :
    IsClosed (d.comment tree) := by
  unfold commentLength at h
  split at h
  · next rest =>
    obtain rfl := Option.some.inj h
    have own : d.text tree = .scalar '/' :: .scalar '/' ::
        Text.ofChars (rest.takeWhile (!endsComment ·)) := by
      have line := List.prefix_iff_eq_take.1 (List.takeWhile_prefix (!endsComment ·) (l := rest))
      rw [text, List.take_succ_cons, List.take_succ_cons, ← line]
      rfl
    rw [Document.comment, own]
    refine List.forall_mem_map.2 fun c mem => ?_
    have stays : (!endsComment c) = true :=
      @List.mem_takeWhile_imp _ (!endsComment ·) _ _ mem
    rwa [Bool.not_eq_true'] at stays
  · next rest =>
    obtain ⟨k, tail, rfl⟩ := Option.map_eq_some_iff.1 h
    obtain ⟨body, eq, after⟩ := afterBlock?_blockCommentTail tail
    have own :
        d.text tree = .scalar '/' :: .scalar '*' :: (Text.ofChars body ++ ("*/" : Text)) := by
      rw [text, List.take_succ_cons, List.take_succ_cons, eq, ofChars_cons, ofChars_cons,
        ofChars_append]
      rfl
    have value : (Text.ofChars body ++ ("*/" : Text)).take
        ((Text.ofChars body ++ ("*/" : Text)).length - 2) = Text.ofChars body := by
      rw [List.length_append]
      exact List.take_left
    have comment : d.comment tree = ⟨true, Text.ofChars body⟩ := by
      rw [Document.comment, own]
      exact congrArg (Comment.mk true) value
    rw [comment]
    exact after
  · cases h

/-! ## Tokens -/

/-- The kinds of tokens that are no words. -/
def wordlessKinds : List String := ["number", "string", Tree.commentKind, signKind]

/-- The kinds of trees whose text or whose shape matters. -/
def tokenKinds : List String := nameKinds ++ wordlessKinds ++ shapedKinds

/-- A text that goes with a kind of tokens. -/
structure Lexeme (kind : String) (text : List Char) : Prop where
  other : kind ≠ signKind
  name : kind ∈ nameKinds → IsName (Text.ofChars text)
  number : kind = "number" → Reads (Text.ofChars text) .operator 0 []
  string : kind = "string" → breaksLine (Text.ofChars text) = false →
    Reads (Text.ofChars text) .operator 0 []
  comment : kind = Tree.commentKind → ∃ rest n, commentLength rest = some n ∧ text = rest.take n

namespace Lexeme

variable {kind : String} {text rest : List Char}

theorem of_isName (isName : IsName (Text.ofChars text)) (name : kind ∉ wordlessKinds) :
    Lexeme kind text := by
  simp only [wordlessKinds, List.mem_cons, List.not_mem_nil, or_false, not_or] at name
  obtain ⟨number, string, comment, sign⟩ := name
  exact ⟨sign, fun _ => isName, fun h => absurd h number, fun h => absurd h string,
    fun h => absurd h comment⟩

theorem of_not_mem (plain : kind ∉ tokenKinds) : Lexeme kind text := by
  simp only [tokenKinds, wordlessKinds, List.mem_append, List.mem_cons, List.not_mem_nil, or_false,
    not_or] at plain
  obtain ⟨⟨name, number, string, comment, sign⟩, -⟩ := plain
  exact ⟨sign, fun h => absurd h name, fun h => absurd h number, fun h => absurd h string,
    fun h => absurd h comment⟩

theorem of_number (some : 0 < numberLength rest) :
    Lexeme "number" (rest.take (numberLength rest)) :=
  ⟨by decide, fun h => absurd h (by decide), fun _ => reads_number some, nofun, nofun⟩

theorem of_string {n : Nat} (h : stringLength rest = some n) : Lexeme "string" (rest.take n) :=
  ⟨by decide, fun h => absurd h (by decide), nofun, fun _ => reads_string h, nofun⟩

theorem of_comment {n : Nat} (h : commentLength rest = some n) :
    Lexeme Tree.commentKind (rest.take n) :=
  ⟨by decide, fun h => absurd h (by decide), nofun, nofun, fun _ => ⟨rest, n, h, rfl⟩⟩

theorem fits {d : Document} {named missing : Bool} {start stop : Point} (h : Lexeme kind text)
    (own : d.text (.node kind named missing none start stop []) = Text.ofChars text) :
    Fits d (.node kind named missing none start stop []) where
  name kind := own ▸ h.name kind
  number kind := own ▸ h.number kind
  string kind := own ▸ h.string kind
  comment kind := by
    obtain ⟨rest, n, comment, rfl⟩ := h.comment (of_decide_eq_true kind)
    exact isClosed_comment comment own
  property := nofun
  shape := ⟨h.other, fun _ => rfl, fun _ => rfl, .nil⟩

end Lexeme

namespace Tokenized

variable {d : Document} {tree : Tree}

theorem withField {name : String} (h : Tokenized d tree)
    (property : name = "property" → tree.kind ∈ nameKinds)
    (comment : tree.isComment → name ∉ secondNames) : Tokenized d (tree.withField name) := by
  obtain ⟨fits, parts⟩ := h
  obtain ⟨kind, named, missing, field, start, stop, children⟩ := tree
  obtain ⟨other, leaf, -, outline⟩ := fits.shape
  refine .node ⟨fits.name, fits.number, fits.string, fits.comment, fun part => ?_, other, leaf,
    fun own => ?_, outline⟩ parts
  · exact property (Option.some.inj part)
  · exact Bool.eq_false_iff.2 fun mem => comment own (List.contains_iff_mem.1 mem)

/-- A construct whose parts stand as its kind has them. -/
theorem of_outline (plain : tree.kind ∉ nameKinds ++ wordlessKinds) (leaf : tree.kind ∉ leafKinds)
    (named : tree.named) (field : tree.field = none) (outline : Outline d tree.kind tree.children)
    (parts : ∀ part ∈ tree.children, part.kind ≠ signKind → Tokenized d part) :
    Tokenized d tree := by
  have other {kind : String} (mem : kind ∈ nameKinds ++ wordlessKinds) : tree.kind ≠ kind := by
    rintro rfl
    exact plain mem
  have comment : tree.kind ≠ Tree.commentKind := other (by decide)
  refine .node ⟨fun kind => ?_, fun kind => ?_, fun kind => ?_, fun kind => ?_, ?_,
    other (by decide), fun kind => ?_, fun kind => ?_, outline⟩ parts
  · exact absurd (List.mem_append_left _ kind) plain
  · exact absurd kind (other (by decide))
  · exact absurd kind (other (by decide))
  · exact absurd (of_decide_eq_true kind) comment
  · rw [field]
    nofun
  · obtain unnamed | mem := kind
    · rw [named] at unnamed
      cases unnamed
    · exact absurd mem leaf
  · exact absurd (of_decide_eq_true kind) comment

theorem of_not_mem (plain : tree.kind ∉ tokenKinds) (named : tree.named) (field : tree.field = none)
    (parts : ∀ part ∈ tree.children, Tokenized d part) : Tokenized d tree := by
  have leaves : ∀ kind ∈ leafKinds, kind ∈ tokenKinds := by decide
  have leaf : tree.kind ∉ leafKinds := fun mem => plain (leaves _ mem)
  rw [tokenKinds, List.mem_append, not_or] at plain
  exact of_outline plain.1 leaf named field
    (.of_not_mem plain.2 fun part mem => (parts part mem).fits.shape.kind) fun part mem _ =>
      parts part mem

end Tokenized

end ElementWrapper.Source
