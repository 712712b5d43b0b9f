import ElementWrapper.Proofs.Literal.Escapes

/-!
The tokens of a clause of names, after the lexical grammar of scripts. Which characters an
identifier may hold is left open (`Alphabet`), but for those that the grammar puts between tokens.
`Scans` relates a text to its tokens: a word goes on as far as it can, and both words and strings
may be written with escapes.

What a token stands for is never larger than what it is written with (`Scans.size_le`), and the
tokens of a text that is put together from words and signs are known (`scans_word_iff` and its kin).
-/

namespace ElementWrapper.Clause

open Literal (Part HexDigit IsBody backslash isNameStart isNamePart)

/-! ## Words -/

/-- The numbers of the characters that separate tokens: blanks and ends of lines. -/
def whites : List Nat :=
  [0x9, 0xA, 0xB, 0xC, 0xD, 0x20, 0xA0, 0x1680, 0x2000, 0x2001, 0x2002, 0x2003, 0x2004, 0x2005,
    0x2006, 0x2007, 0x2008, 0x2009, 0x200A, 0x2028, 0x2029, 0x202F, 0x205F, 0x3000, 0xFEFF]

/-- The characters that begin or end other tokens than words. -/
def delimiters : List Char := ['"', '\'', '\\', '/', '*', ',', '\x7b', '\x7d']

/-- The characters that an identifier may begin with, and those it may go on with. -/
structure Alphabet where
  start : Char → Bool
  part : Char → Bool
  part_of_start : ∀ c, start c → part c
  start_of_isAlpha : ∀ c : Char, c.isAlpha → start c
  not_white : ∀ c, part c → c.toNat ∉ whites
  not_delimiter : ∀ c, part c → c ∉ delimiters

/-- The numbers of the ASCII characters that may be in a name. -/
theorem toNat_of_isNamePart {c : Char} (h : isNamePart c) :
    c.toNat = 36 ∨ (48 ≤ c.toNat ∧ c.toNat ≤ 57) ∨ (65 ≤ c.toNat ∧ c.toNat ≤ 90) ∨ c.toNat = 95 ∨
      (97 ≤ c.toNat ∧ c.toNat ≤ 122) := by
  simp only [isNamePart, isNameStart, Char.isAlpha, Char.isUpper, Char.isLower, Char.isDigit,
    Bool.or_eq_true, Bool.and_eq_true, decide_eq_true_eq, beq_iff_eq, ge_iff_le,
    UInt32.le_iff_toNat_le] at h
  change (((_ ≤ c.toNat ∧ c.toNat ≤ _ ∨ _ ≤ c.toNat ∧ c.toNat ≤ _) ∨ _) ∨ _) ∨
    _ ≤ c.toNat ∧ c.toNat ≤ _ at h
  obtain (((upper | lower) | rfl) | rfl) | digit := h
  · exact .inr (.inr (.inl upper))
  · exact .inr (.inr (.inr (.inr lower)))
  · exact .inr (.inr (.inr (.inl rfl)))
  · exact .inl rfl
  · exact .inr (.inl digit)

namespace Alphabet

/-- The identifiers of ASCII characters. -/
def ascii : Alphabet where
  start := isNameStart
  part := isNamePart
  part_of_start c h := by rw [isNamePart, h]; rfl
  start_of_isAlpha c h := by rw [isNameStart, h]; rfl
  not_white c h mem := by
    have bounds := toNat_of_isNamePart h
    simp only [whites, List.mem_cons, List.not_mem_nil, or_false] at mem
    omega
  not_delimiter c h mem := by
    fin_cases mem <;> cases h

variable (names : Alphabet)

/-- A name that can be written as an identifier. -/
def IsWord (text : Text) : Prop :=
  ∃ first rest, text = Text.ofChars (first :: rest) ∧ names.start first ∧ ∀ c ∈ rest, names.part c

/-- An escape that stands for a character of an identifier. -/
inductive Escapes : Part → Char → Prop
  | unit {a b c d : HexDigit} {char : Char} : char.toNat = HexDigit.number [a, b, c, d] →
    Escapes (.unit a b c d) char
  | codePoint {digits : List HexDigit} {char : Char} : digits ≠ [] →
    char.toNat = HexDigit.number digits → Escapes (.codePoint digits) char

/-- What the characters of an identifier are written with and what they stand for. -/
inductive Spells : Text → Text → Prop
  | nil : Spells [] []
  | char {c : Char} {written value : Text} : names.part c → Spells written value →
    Spells (.scalar c :: written) (.scalar c :: value)
  | escape {escape : Part} {c : Char} {written value : Text} : Escapes escape c → names.part c →
    Spells written value → Spells (escape.source ++ written) (.scalar c :: value)

/-- No identifier goes on with the text. -/
def EndsWord (rest : Text) : Prop :=
  ∀ c ∈ rest.head?, c ≠ backslash ∧ c.all names.part = false

end Alphabet

/-! ## Tokens -/

/-- A token of a clause of names. -/
inductive Token where
  /-- An identifier, how it is written and what it stands for. -/
  | word (written value : Text)
  /-- A string with a value. -/
  | string (value : Text)
  /-- A comma or a brace. -/
  | sign (c : Char)

/-- The name that a token stands for. -/
def Token.name? : Token → Option Text
  | word _ value | string value => some value
  | sign _ => none

/-- The signs in a clause. -/
def signs : List Char := [',', '\x7b', '\x7d']

/-- A text with its tokens. -/
inductive Scans (names : Alphabet) : Text → List Token → Prop
  | done : Scans names [] []
  | white {c : Char} {rest : Text} {tokens : List Token} : c.toNat ∈ whites →
    Scans names rest tokens → Scans names (.scalar c :: rest) tokens
  | lineComment {body rest : Text} {tokens : List Token} :
    (∀ c ∈ body, Literal.endsLine c = false) → (∀ c ∈ rest.head?, Literal.endsLine c) →
    Scans names rest tokens →
    Scans names (.scalar '/' :: .scalar '/' :: (body ++ rest)) tokens
  | blockComment {body rest : Text} {tokens : List Token} : ¬ ("*/" : Text) <:+: body ++ "*" →
    Scans names rest tokens →
    Scans names (.scalar '/' :: .scalar '*' :: (body ++ .scalar '*' :: .scalar '/' :: rest)) tokens
  | sign {c : Char} {rest : Text} {tokens : List Token} : c ∈ signs → Scans names rest tokens →
    Scans names (.scalar c :: rest) (.sign c :: tokens)
  | word {written value rest : Text} {tokens : List Token} : names.Spells written value →
    names.IsWord value → names.EndsWord rest → Scans names rest tokens →
    Scans names (written ++ rest) (.word written value :: tokens)
  | string {quote : Char} {parts : List Part} {value rest : Text} {tokens : List Token} :
    quote = '"' ∨ quote = '\'' → IsBody quote parts →
    value.units = parts.flatMap Part.value → Scans names rest tokens →
    Scans names (.scalar quote :: (Literal.source parts ++ .scalar quote :: rest))
      (.string value :: tokens)

/-! ## Sizes -/

/-- How many code units are no white space. -/
def solid (units : List Nat) : Nat := (units.filter (· ∉ whites)).length

/-- The size of a text without its white space. -/
def size (text : Text) : Nat := solid text.units

/-- The least size that a token is written with. -/
def Token.size : Token → Nat
  | word _ value => Clause.size value
  | string value => Clause.size value + 1
  | sign _ => 1

@[simp] theorem solid_append (first second : List Nat) :
    solid (first ++ second) = solid first + solid second := by
  simp [solid]

@[simp] theorem size_append (first second : Text) :
    size (first ++ second) = size first + size second := by
  simp [size]

theorem size_cons (c : CodePoint) (rest : Text) : size (c :: rest) = size [c] + size rest :=
  size_append [c] rest

theorem solid_utf16_le (n : Nat) : solid (utf16 n) ≤ 2 := by
  refine (List.length_filter_le _ _).trans ?_
  rw [utf16]
  split <;> simp

theorem size_le_of_suffix {rest text : Text} (h : rest <:+ text) : size rest ≤ size text := by
  obtain ⟨before, rfl⟩ := h
  rw [size_append]
  exact Nat.le_add_left _ _

theorem size_singleton (c : CodePoint) : size [c] = solid (utf16 c.toNat) := by
  rw [size, Text.units_singleton]

/-- An escape is written with more than it stands for. -/
theorem size_escape {escape : Part} {c : Char} (h : Alphabet.Escapes escape c) :
    size [.scalar c] ≤ size escape.source := by
  have least : size [.scalar c] ≤ 2 := (size_singleton _).trans_le (solid_utf16_le _)
  have start : size "\\u" = 2 := by decide
  have brace : size "\\u\x7b" = 3 := by decide
  cases h <;> simp only [Part.source, size_append] <;> omega

/-- An identifier is written with at least what it stands for. -/
theorem Alphabet.Spells.size_le {names : Alphabet} {written value : Text}
    (h : names.Spells written value) : size value ≤ size written := by
  induction h with
  | nil => exact le_rfl
  | @char c written value _ _ ih =>
    rw [size_cons _ written, size_cons _ value]
    omega
  | @escape escape c written value escapes _ _ ih =>
    have first := size_escape escapes
    rw [size_append, size_cons _ value]
    omega

theorem solid_singleton_le (unit : Nat) : solid [unit] ≤ 1 := List.length_filter_le _ _

/-- A code point behind a backslash stands for itself or for a control character. -/
theorem meaning_cases (c : CodePoint) :
    Part.meaning c = c ∨ ∃ unit, utf16 (Part.meaning c).toNat = [unit] := by
  unfold Part.meaning
  split <;> first | exact .inl rfl | exact .inr ⟨_, rfl⟩

/-- A part of a string is written with at least what it stands for. -/
theorem solid_value_le {quote : CodePoint} {part : Part} (allowed : part.Allowed quote) :
    solid part.value ≤ size part.source := by
  have slash : size [backslash] = 1 := by decide
  have byte : size "\\x" = 2 := by decide
  have unit : size "\\u" = 2 := by decide
  have braced : size "\\u\x7b" = 3 := by decide
  cases part with
  | plain c => exact (size_singleton c).ge
  | escaped c =>
    rw [Part.source, size_cons, slash, size_singleton, Part.value]
    obtain own | ⟨unit, control⟩ := meaning_cases c
    · rw [own]
      exact Nat.le_add_left _ _
    · rw [control]
      exact (solid_singleton_le unit).trans (Nat.le_add_right _ _)
  | zero => decide
  | byte | unit =>
    have one := solid_singleton_le
    simp only [Part.value, Part.source, size_append, byte, unit]
    exact (one _).trans (by omega)
  | codePoint digits =>
    have two := solid_utf16_le (HexDigit.number digits)
    simp only [Part.value, Part.source, size_append, braced]
    omega
  | continuation => exact Nat.zero_le _

theorem solid_values_le {quote : CodePoint} {parts : List Part}
    (allowed : ∀ part ∈ parts, part.Allowed quote) :
    solid (parts.flatMap Part.value) ≤ size (Literal.source parts) := by
  induction parts with
  | nil => exact le_rfl
  | cons part parts ih =>
    obtain ⟨first, others⟩ := List.forall_mem_cons.1 allowed
    rw [Literal.source, List.flatMap_cons, List.flatMap_cons, solid_append, size_append]
    exact Nat.add_le_add (solid_value_le first) (ih others)

/-- **A text is never smaller than its tokens.** -/
theorem Scans.size_le {names : Alphabet} {text : Text} {tokens : List Token}
    (h : Scans names text tokens) : (tokens.map Token.size).sum ≤ size text := by
  induction h with
  | done => exact le_rfl
  | white _ _ ih => exact ih.trans (size_le_of_suffix (List.suffix_cons _ _))
  | @lineComment body rest _ _ _ _ ih =>
    exact ih.trans (size_le_of_suffix ⟨"//" ++ body, by simp; rfl⟩)
  | @blockComment body rest _ _ _ ih =>
    exact ih.trans (size_le_of_suffix ⟨"/*" ++ body ++ "*/", by simp; rfl⟩)
  | @sign c rest _ sign _ ih =>
    have one : size [.scalar c] = 1 := by
      fin_cases sign <;> decide
    rw [List.map_cons, List.sum_cons, Token.size, size_cons _ rest, one]
    omega
  | @word written value rest _ spells _ _ _ ih =>
    have first := spells.size_le
    rw [List.map_cons, List.sum_cons, Token.size, size_append]
    omega
  | @string quote parts value rest _ quoted body units _ ih =>
    have one : size [.scalar quote] = 1 := by
      obtain rfl | rfl := quoted <;> decide
    have inner : size value ≤ size (Literal.source parts) := by
      rw [size, units]
      exact solid_values_le body.allowed
    rw [List.map_cons, List.sum_cons, Token.size, size_cons, size_append, size_cons _ rest, one]
    omega

/-! ## Words and signs -/

section

variable {names : Alphabet}

theorem text_injective : Function.Injective HexDigit.text := by
  refine List.map_injective_iff.2 fun first second same => ?_
  obtain ⟨c, _⟩ := first
  obtain ⟨d, _⟩ := second
  obtain rfl := CodePoint.scalar.inj same
  rfl

/-- An escape is found in front of any text. -/
theorem Alphabet.Escapes.read {escape : Part} {c : Char} (h : Alphabet.Escapes escape c)
    (rest : Text) :
    ∃ digits tail, c.toNat = HexDigit.number digits ∧
      escape.source ++ rest = backslash :: .scalar 'u' :: tail ∧
      Literal.readEscape 'u' tail = (.numeric (HexDigit.text digits), rest) := by
  cases h with
  | @unit a b c d _ number =>
    exact ⟨[a, b, c, d], _, number, rfl, Part.readEscape_unit rfl rest⟩
  | @codePoint digits _ _ number =>
    refine ⟨digits, _, number, ?_, Part.readEscape_codePoint digits rest⟩
    rw [Part.source, List.append_assoc]
    rfl

theorem Alphabet.Escapes.unique {first second : Part} {c d : Char} {rest other : Text}
    (hf : Alphabet.Escapes first c) (hs : Alphabet.Escapes second d)
    (same : first.source ++ rest = second.source ++ other) :
    first.source = second.source ∧ c = d ∧ rest = other := by
  obtain ⟨digits, tail, number, begins, read⟩ := hf.read rest
  obtain ⟨digits', tail', number', begins', read'⟩ := hs.read other
  obtain rfl : tail = tail' := by simpa [begins, begins'] using same
  obtain ⟨texts, rfl⟩ := Prod.mk.inj (read.symm.trans read')
  obtain rfl := text_injective (Literal.Escape.numeric.inj texts)
  exact ⟨List.append_cancel_right same, Char.toNat_inj.1 (number.trans number'.symm), rfl⟩

theorem not_endsWord_char {c : Char} {rest : Text} (part : names.part c) :
    ¬ names.EndsWord (.scalar c :: rest) := by
  intro ends
  cases part.symm.trans (ends _ rfl).2

theorem not_endsWord_escape {escape : Part} {c : Char} {rest : Text}
    (h : Alphabet.Escapes escape c) : ¬ names.EndsWord (escape.source ++ rest) := by
  obtain ⟨_, _, _, begins, -⟩ := h.read rest
  rw [begins]
  exact fun ends => (ends _ rfl).1 rfl

theorem char_ne_escape {c d : Char} {escape : Part} {rest other : Text} (part : names.part c)
    (h : Alphabet.Escapes escape d) : .scalar c :: rest ≠ escape.source ++ other := by
  intro same
  obtain ⟨_, _, _, begins, -⟩ := h.read other
  rw [begins] at same
  obtain rfl := CodePoint.scalar.inj (List.cons.inj same).1
  exact names.not_delimiter _ part (by decide)

/-- A word has one end and stands for one name. -/
theorem Alphabet.Spells.unique {written value written' value' rest rest' : Text}
    (h : names.Spells written value) (ends : names.EndsWord rest)
    (h' : names.Spells written' value') (ends' : names.EndsWord rest')
    (same : written ++ rest = written' ++ rest') :
    written = written' ∧ value = value' ∧ rest = rest' := by
  induction h generalizing written' value' with
  | nil =>
    rw [List.nil_append] at same
    cases h' with
    | nil => exact ⟨rfl, rfl, same⟩
    | char part =>
      rw [same] at ends
      exact absurd ends (not_endsWord_char part)
    | escape escapes =>
      rw [same, List.append_assoc] at ends
      exact absurd ends (not_endsWord_escape escapes)
  | char part _ ih =>
    cases h' with
    | nil =>
      rw [List.nil_append] at same
      rw [← same] at ends'
      exact absurd ends' (not_endsWord_char part)
    | char _ others =>
      obtain ⟨first, later⟩ := List.cons.inj same
      obtain ⟨rfl, rfl, rfl⟩ := ih others later
      exact ⟨by rw [first], by rw [first], rfl⟩
    | escape escapes =>
      rw [List.append_assoc] at same
      exact absurd same (char_ne_escape part escapes)
  | escape escapes part _ ih =>
    rw [List.append_assoc] at same
    cases h' with
    | nil =>
      rw [List.nil_append] at same
      rw [← same] at ends'
      exact absurd ends' (not_endsWord_escape escapes)
    | char part' => exact absurd same.symm (char_ne_escape part' escapes)
    | escape escapes' _ others =>
      rw [List.append_assoc] at same
      obtain ⟨source, rfl, later⟩ := escapes.unique escapes' same
      obtain ⟨rfl, rfl, rfl⟩ := ih others later
      exact ⟨by rw [source], rfl, rfl⟩

/-! ## Tokens in sequence -/

/-- What an identifier is written with begins with one of its characters or with a backslash. -/
theorem Alphabet.Spells.head {written value : Text} (h : names.Spells written value)
    (word : names.IsWord value) :
    ∃ c later, written = .scalar c :: later ∧ (names.part c ∨ c = '\\') := by
  cases h with
  | nil =>
    obtain ⟨_, _, ⟨⟩, -⟩ := word
  | char part => exact ⟨_, _, rfl, .inl part⟩
  | escape escapes =>
    obtain ⟨_, _, _, begins, -⟩ := escapes.read _
    exact ⟨_, _, begins, .inr rfl⟩

/-- The first character of a text says what the text begins with. -/
theorem Scans.head {c : Char} {rest : Text} {tokens : List Token}
    (h : Scans names (.scalar c :: rest) tokens) :
    (c.toNat ∈ whites ∧ Scans names rest tokens) ∨
    c ∈ ['/', '"', '\''] ∨
    (c ∈ signs ∧ ∃ others, tokens = .sign c :: others ∧ Scans names rest others) ∨
    ((names.part c ∨ c = '\\') ∧ ∃ written value later others,
      .scalar c :: rest = written ++ later ∧ tokens = .word written value :: others ∧
      names.Spells written value ∧ names.EndsWord later ∧ Scans names later others) := by
  generalize same : CodePoint.scalar c :: rest = text at h
  cases h with
  | done => cases same
  | white white h =>
    cases same
    exact .inl ⟨white, h⟩
  | lineComment | blockComment =>
    obtain rfl := CodePoint.scalar.inj (List.cons.inj same).1
    exact .inr (.inl (by decide))
  | sign sign h =>
    cases same
    exact .inr (.inr (.inl ⟨sign, _, rfl, h⟩))
  | word spells word ends h =>
    obtain ⟨d, _, begins, part⟩ := spells.head word
    obtain rfl : c = d := by
      rw [begins] at same
      exact CodePoint.scalar.inj (List.cons.inj same).1
    exact .inr (.inr (.inr ⟨part, _, _, _, _, rfl, rfl, spells, ends, h⟩))
  | string quoted =>
    obtain rfl := CodePoint.scalar.inj (List.cons.inj same).1
    exact .inr (.inl (by obtain rfl | rfl := quoted <;> decide))

theorem not_part_of_white {c : Char} (white : c.toNat ∈ whites) :
    ¬ (names.part c ∨ c = '\\') := by
  rintro (part | rfl)
  · exact names.not_white c part white
  · exact absurd white (by decide)

theorem scans_white_iff {c : Char} (white : c.toNat ∈ whites) {rest : Text} {tokens : List Token} :
    Scans names (.scalar c :: rest) tokens ↔ Scans names rest tokens := by
  refine ⟨fun h => ?_, .white white⟩
  obtain ⟨-, h⟩ | other | ⟨other, -⟩ | ⟨other, -⟩ := h.head
  · exact h
  · fin_cases other <;> exact absurd white (by decide)
  · fin_cases other <;> exact absurd white (by decide)
  · exact absurd other (not_part_of_white white)

/-- A sign is a token of its own. -/
theorem scans_sign_iff {c : Char} (sign : c ∈ signs) {rest : Text} {tokens : List Token} :
    Scans names (.scalar c :: rest) tokens ↔
      ∃ others, tokens = .sign c :: others ∧ Scans names rest others := by
  constructor
  · intro h
    obtain ⟨white, -⟩ | other | ⟨-, h⟩ | ⟨part | rfl, -⟩ := h.head
    · fin_cases sign <;> exact absurd white (by decide)
    · fin_cases sign <;> exact absurd other (by decide)
    · exact h
    · refine absurd ?_ (names.not_delimiter c part)
      fin_cases sign <;> decide
    · exact absurd sign (by decide)
  · rintro ⟨others, rfl, h⟩
    exact .sign sign h

/-- A word goes on up to what ends it, and is read in one way only. -/
theorem scans_word_iff {written value rest : Text} {tokens : List Token}
    (spells : names.Spells written value) (word : names.IsWord value) (ends : names.EndsWord rest) :
    Scans names (written ++ rest) tokens ↔
      ∃ others, tokens = .word written value :: others ∧ Scans names rest others := by
  constructor
  · intro h
    obtain ⟨c, later, rfl, part⟩ := spells.head word
    rw [List.cons_append] at h
    obtain ⟨white, -⟩ | other | ⟨sign, -⟩ | ⟨-, _, _, _, others, same, rfl, spells', ends', h⟩ :=
      h.head
    · exact absurd part (not_part_of_white white)
    · obtain part | rfl := part
      · refine absurd ?_ (names.not_delimiter c part)
        fin_cases other <;> decide
      · exact absurd other (by decide)
    · obtain part | rfl := part
      · refine absurd ?_ (names.not_delimiter c part)
        fin_cases sign <;> decide
      · exact absurd sign (by decide)
    · obtain ⟨rfl, rfl, rfl⟩ := spells.unique ends spells' ends' same
      exact ⟨others, rfl, h⟩
  · rintro ⟨others, rfl, h⟩
    exact .word spells word ends h

end

end ElementWrapper.Clause
