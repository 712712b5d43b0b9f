import ElementWrapper.Proofs.Literal.Quotation

/-!
The value of a string literal, as the language defines it, and what cooking its body gives. A body
is a sequence of parts; each has a source and a value, which is a sequence of code units of sixteen
bits (`Part`, after the grammar of strings in strict code). Cooking gives the value of the whole,
except that a line that is continued after anything but a line feed leaves what ends it in the text
(`cook_of_body`).
-/

namespace ElementWrapper

/-! ## Code units -/

/-- The code units of sixteen bits that encode the code point with a number. -/
def utf16 (n : Nat) : List Nat :=
  if n ≤ 0xFFFF then [n]
  else [0xD800 + (n - 0x10000) / 0x400, 0xDC00 + (n - 0x10000) % 0x400]

/-- The code units of a text. -/
def Text.units (text : Text) : List Nat := text.flatMap fun c => utf16 c.toNat

@[simp] theorem Text.units_append (first second : Text) :
    (first ++ second).units = first.units ++ second.units := List.flatMap_append

@[simp] theorem Text.units_singleton (c : CodePoint) : Text.units [c] = utf16 c.toNat :=
  List.flatMap_singleton ..

/-- Every number up to the last one is that of a code point, surrogates included. -/
theorem CodePoint.exists_ofNat? {n : Nat} (h : n ≤ 0x10FFFF) :
    ∃ c, CodePoint.ofNat? n = some c ∧ c.toNat = n := by
  unfold CodePoint.ofNat?
  split
  · next valid => exact ⟨_, rfl, rfl⟩
  · next invalid =>
    have low : firstSurrogate ≤ n ∧ n < firstSurrogate + 2048 := by
      simp only [Nat.isValidChar, firstSurrogate] at *
      omega
    rw [dif_pos low]
    refine ⟨_, rfl, ?_⟩
    simp only [CodePoint.toNat]
    omega

namespace Literal

/-! ## Numbers -/

/-- The number that a character stands for as a digit of base sixteen. -/
def hexValue (c : Char) : Nat :=
  if c.isDigit then c.toNat - '0'.toNat
  else if 'a' ≤ c then c.toNat - 'a'.toNat + 10
  else c.toNat - 'A'.toNat + 10

/-- A digit of base sixteen as it is written. -/
structure HexDigit where
  char : Char
  isHex : Source.isHexDigit char

namespace HexDigit

/-- The number that is written by digits. -/
def number (digits : List HexDigit) : Nat :=
  digits.foldl (fun number digit => 16 * number + hexValue digit.char) 0

/-- The digits as they are written. -/
def text (digits : List HexDigit) : Text := digits.map fun digit => .scalar digit.char

/-- What holds of each of the characters that a digit can be written as, holds of the digit. -/
theorem forall_char {p : Char → Prop} [DecidablePred p]
    (h : ['0', '1', '2', '3', '4', '5', '6', '7', '8', '9', 'a', 'b', 'c', 'd', 'e', 'f',
      'A', 'B', 'C', 'D', 'E', 'F'].all p) (digit : HexDigit) : p digit.char := by
  refine of_decide_eq_true (List.all_eq_true.1 h _ ?_)
  have hex := digit.isHex
  simp only [Source.isHexDigit, Char.isDigit, Bool.or_eq_true, Bool.and_eq_true,
    decide_eq_true_eq, Char.le_def, UInt32.le_iff_toNat_le, ge_iff_le, or_assoc] at hex
  rw [← Char.ofNat_toNat digit.char, Char.toNat]
  generalize digit.char.val.toNat = n at hex
  change (48 ≤ n ∧ n ≤ 57) ∨ (97 ≤ n ∧ n ≤ 102) ∨ (65 ≤ n ∧ n ≤ 70) at hex
  obtain ⟨low, high⟩ | ⟨low, high⟩ | ⟨low, high⟩ := hex <;> interval_cases n <;> decide

theorem hexDigit?_char (digit : HexDigit) :
    Text.hexDigit? digit.char = some (hexValue digit.char) ∧ hexValue digit.char < 16 :=
  digit.forall_char (p := fun c => Text.hexDigit? c = some (hexValue c) ∧ hexValue c < 16) rfl

theorem not_isNumberBlank (digit : HexDigit) : Text.isNumberBlank digit.char = false :=
  digit.forall_char (p := fun c => Text.isNumberBlank c = false) rfl

theorem readDigits_text (digits : List HexDigit) (value : Nat) :
    Text.readDigits 16 Text.hexDigit? value true (text digits) =
      some (digits.foldl (fun number digit => 16 * number + hexValue digit.char) value) := by
  induction digits generalizing value with
  | nil => rfl
  | cons digit digits ih =>
    obtain ⟨read, small⟩ := digit.hexDigit?_char
    rw [text, List.map_cons, Text.readDigits, read]
    dsimp only
    rw [if_pos small, ← text, ih, List.foldl_cons, Nat.mul_comm]

theorem trim_text (digits : List HexDigit) :
    Text.trimEnd Text.isNumberBlank ((text digits).dropWhile Text.isNumberBlank) = text digits := by
  have solid (digits : List HexDigit) :
      (text digits).dropWhile Text.isNumberBlank = text digits := by
    cases digits with
    | nil => rfl
    | cons first rest => rw [text, List.map_cons, List.dropWhile_cons, first.not_isNumberBlank]; rfl
  have reversed : (text digits).reverse = text digits.reverse := List.map_reverse.symm
  rw [solid, Text.trimEnd, reversed, solid, ← reversed, List.reverse_reverse]

/-- Digits are read as the number that they are written for. -/
theorem readHexBody_text {digits : List HexDigit} (nonempty : digits ≠ []) :
    Text.readHexBody (text digits) = some (number digits) := by
  have unmarked (mark : Char) (rest : Text) (letter : Source.isHexDigit mark = false) :
      text digits ≠ .scalar '0' :: .scalar mark :: rest := by
    intro same
    obtain ⟨_, others, rfl, -, same⟩ := List.map_eq_cons_iff.1 same
    obtain ⟨digit, _, rfl, written, -⟩ := List.map_eq_cons_iff.1 same
    rw [← CodePoint.scalar.inj written, digit.isHex] at letter
    cases letter
  rw [Text.readHexBody]
  · obtain ⟨first, rest, rfl⟩ := List.exists_cons_of_ne_nil nonempty
    obtain ⟨read, small⟩ := first.hexDigit?_char
    rw [text, List.map_cons, Text.readDigits, read]
    dsimp only
    rw [if_pos small, ← text, readDigits_text, number, List.foldl_cons, Nat.mul_comm]
  · exact fun rest => unmarked 'x' rest rfl
  · exact fun rest => unmarked 'X' rest rfl

/-- Digits without anything around them are read as their number. -/
theorem readHex_text {digits : List HexDigit} (nonempty : digits ≠ []) :
    Text.readHex (text digits) = some (number digits : Int) := by
  have unsigned (sign : Char) (rest : Text) (letter : Source.isHexDigit sign = false) :
      text digits ≠ .scalar sign :: rest := by
    intro same
    obtain ⟨digit, _, rfl, written, -⟩ := List.map_eq_cons_iff.1 same
    rw [← CodePoint.scalar.inj written, digit.isHex] at letter
    cases letter
  rw [Text.readHex, Text.readSigned, trim_text]
  split
  · next h => exact absurd h (unsigned '-' _ rfl)
  · next h => exact absurd h (unsigned '+' _ rfl)
  · rw [readHexBody_text nonempty]
    rfl

theorem number_lt (digits : List HexDigit) : number digits < 16 ^ digits.length := by
  induction digits using List.reverseRecOn with
  | nil => exact Nat.one_pos
  | append_singleton digits digit ih =>
    have small := digit.hexDigit?_char.2
    rw [number, List.foldl_append, List.length_append, List.length_singleton, Nat.pow_succ]
    change 16 * number digits + hexValue digit.char < _
    omega

/-- An escape by a number that is not too large stands for the code point with that number. -/
theorem exists_value {digits : List HexDigit} (nonempty : digits ≠ [])
    (small : number digits ≤ 0x10FFFF) :
    ∃ c : CodePoint, c.toNat = number digits ∧ (Escape.numeric (text digits)).value = .ok [c] := by
  obtain ⟨c, found, same⟩ := CodePoint.exists_ofNat? small
  refine ⟨c, same, ?_⟩
  have inRange : ¬ ((number digits : Int) < -0x80000000 ∨ 0x7FFFFFFF < (number digits : Int)) := by
    omega
  rw [Escape.value, numericEscape, readHex_text nonempty]
  simp only [if_neg inRange, found]
  rfl

/-- At most four digits stand for the code unit with their number. -/
theorem exists_value_of_short {digits : List HexDigit} (nonempty : digits ≠ [])
    (short : digits.length ≤ 4) :
    ∃ text : Text, text.units = [number digits] ∧
      (Escape.numeric (HexDigit.text digits)).value = .ok text := by
  have small : number digits < 0x10000 :=
    (number_lt digits).trans_le (Nat.pow_le_pow_right (by decide) short)
  obtain ⟨c, same, value⟩ := exists_value nonempty (by omega)
  exact ⟨[c], by rw [Text.units_singleton, same, utf16, if_pos (by omega)], value⟩

end HexDigit

/-! ## Parts -/

/-- What ends a line of a source. -/
inductive LineEnd where
  | lineFeed | carriageReturn | both | lineSeparator | paragraphSeparator

/-- The end of a line as it is written. -/
def LineEnd.text : LineEnd → Text
  | lineFeed => "\n"
  | carriageReturn => "\r"
  | both => "\r\n"
  | lineSeparator => "\u2028"
  | paragraphSeparator => "\u2029"

/-- What the body of a string consists of. -/
inductive Part where
  /-- A code point that stands for itself. -/
  | plain (c : CodePoint)
  /-- A code point after a backslash. -/
  | escaped (c : CodePoint)
  /-- The character zero as `\0`. -/
  | zero
  /-- A code unit by two digits, as `\xHH`. -/
  | byte (high low : HexDigit)
  /-- A code unit by four digits, as `\uHHHH`. -/
  | unit (first second third fourth : HexDigit)
  /-- A code point by any number of digits, as `\u{H...}`. -/
  | codePoint (digits : List HexDigit)
  /-- A line that is continued by a backslash at its end. -/
  | continuation (lineEnd : LineEnd)

namespace Part

/-- A part as it is written. -/
def source : Part → Text
  | plain c => [c]
  | escaped c => [backslash, c]
  | zero => "\\0"
  | byte high low => "\\x" ++ HexDigit.text [high, low]
  | unit first second third fourth => "\\u" ++ HexDigit.text [first, second, third, fourth]
  | codePoint digits => "\\u\x7b" ++ HexDigit.text digits ++ "\x7d"
  | continuation lineEnd => backslash :: lineEnd.text

/-- The code point that one after a backslash stands for. -/
def meaning : CodePoint → CodePoint
  | .scalar 'b' => '\x08'
  | .scalar 't' => '\t'
  | .scalar 'n' => '\n'
  | .scalar 'v' => '\x0b'
  | .scalar 'f' => '\x0c'
  | .scalar 'r' => '\r'
  | c => c

/-- The code units that a part stands for. -/
def value : Part → List Nat
  | plain c => utf16 c.toNat
  | escaped c => utf16 (meaning c).toNat
  | zero => [0]
  | byte high low => [HexDigit.number [high, low]]
  | unit first second third fourth => [HexDigit.number [first, second, third, fourth]]
  | codePoint digits => utf16 (HexDigit.number digits)
  | continuation _ => []

/-- Where a part may stand: a code point for itself unless it is the quote, a backslash or one of
the ends of a line that a literal must not have, and after a backslash unless it begins another
part. -/
def Allowed (quote : CodePoint) : Part → Prop
  | plain c => c ≠ quote ∧ c ≠ backslash ∧ c ∉ ("\n\r" : Text)
  | escaped c => c ∉ ("0123456789xu\n\r\u2028\u2029" : Text)
  | codePoint digits => digits ≠ [] ∧ HexDigit.number digits ≤ 0x10FFFF
  | zero | byte .. | unit .. | continuation _ => True

/-- The code units of an end of line that cooking keeps. -/
def kept : Part → List Nat
  | continuation .lineFeed => []
  | continuation lineEnd => lineEnd.text.units
  | _ => []

end Part

/-- The source of some parts. -/
def source (parts : List Part) : Text := parts.flatMap Part.source

/-- The parts make up the body of a string literal with a quote: each may stand in it, and `\0` has
no digit behind it. -/
structure IsBody (quote : CodePoint) (parts : List Part) : Prop where
  allowed : ∀ part ∈ parts, part.Allowed quote
  zero : ∀ before after, parts = before ++ .zero :: after →
    ∀ c ∈ (source after).head?, c ∉ ("0123456789" : Text)

namespace Part

/-- A code point that begins no longer escape stands for its meaning. -/
theorem readEscape_escaped {c : CodePoint}
    (other : c ∉ ("0123456789xu\n\r\u2028\u2029" : Text)) (rest : Text) :
    readEscape c rest = (.plain (meaning c), rest) := by
  have ne (d : CodePoint) (mem : d ∈ ("0123456789xu\n\r\u2028\u2029" : Text)) : c ≠ d :=
    fun same => other (same ▸ mem)
  have letter : letterEscape? c = if meaning c = c then none else some (meaning c) := by
    rw [letterEscape?.eq_def, meaning.eq_def]
    split <;> try rfl
    · exact absurd rfl (ne '0' (by decide))
    · split <;> simp_all
  rw [readEscape, letter]
  · split <;> simp_all
  · exact ne 'u' (by decide)
  · exact ne '\n' (by decide)
  · exact fun _ _ _ same => absurd same (ne 'x' (by decide))
  · exact fun _ same => absurd same (ne 'u' (by decide))

theorem readEscape_unit {digits : List HexDigit} (four : digits.length = 4) (rest : Text) :
    readEscape 'u' (HexDigit.text digits ++ rest) = (.numeric (HexDigit.text digits), rest) := by
  have letter : letterEscape? 'u' = none := rfl
  have size : (HexDigit.text digits).length = 4 := (List.length_map ..).trans four
  rw [readEscape, letter]
  · simp only [List.take_left' size, List.drop_left' size]
  · intro after same
    obtain ⟨first, others, rfl⟩ := List.exists_cons_of_length_eq_add_one four
    have bare := first.forall_char (p := fun c => c ≠ '\x7b') rfl
    exact bare (CodePoint.scalar.inj (List.cons.inj same).1)

/-- Digits in braces behind a `u` are read up to the closing brace. -/
theorem readEscape_codePoint (digits : List HexDigit) (rest : Text) :
    readEscape 'u' (.scalar '\x7b' :: (HexDigit.text digits ++ .scalar '\x7d' :: rest)) =
      (.numeric (HexDigit.text digits), rest) := by
  have within : ∀ c ∈ HexDigit.text digits, decide (c ≠ .scalar '\x7d') := by
    intro c mem
    obtain ⟨digit, -, rfl⟩ := List.mem_map.1 mem
    exact digit.forall_char (p := fun c => decide (CodePoint.scalar c ≠ .scalar '\x7d')) rfl
  have taken : (HexDigit.text digits ++ .scalar '\x7d' :: rest).takeWhile
      (fun c => decide (c ≠ .scalar '\x7d')) = HexDigit.text digits := by
    rw [List.takeWhile_append_of_pos within, List.takeWhile_cons_of_neg (by simp), List.append_nil]
  have letter : letterEscape? 'u' = none := rfl
  simp only [readEscape, letter, taken, List.drop_left]

/-- What cooking makes of a part, whatever comes after it. -/
theorem cook_source {quote : CodePoint} {part : Part} (allowed : part.Allowed quote) :
    ∃ text, text.units = part.value ++ part.kept ∧
      ∀ rest, cook (part.source ++ rest) = (text ++ ·) <$> cook rest := by
  cases part with
  | plain c => exact ⟨[c], by simp [value, kept], cook_of_ne allowed.2.1⟩
  | escaped c =>
    exact ⟨[meaning c], by simp [value, kept],
      fun rest => cook_backslash (readEscape_escaped allowed rest) rfl⟩
  | zero => exact ⟨"\x00", rfl, fun rest => @cook_backslash '0' rest _ _ _ rfl rfl⟩
  | byte high low =>
    obtain ⟨text, units, cooked⟩ := @HexDigit.exists_value_of_short [high, low] nofun (by simp)
    exact ⟨text, by simp [value, kept, units], fun rest => cook_backslash (e := 'x') rfl cooked⟩
  | unit first second third fourth =>
    obtain ⟨text, units, cooked⟩ :=
      @HexDigit.exists_value_of_short [first, second, third, fourth] nofun (by simp)
    refine ⟨text, by simp [value, kept, units], fun rest => cook_backslash (e := 'u') ?_ cooked⟩
    exact @readEscape_unit [first, second, third, fourth] rfl rest
  | codePoint digits =>
    obtain ⟨c, same, cooked⟩ := HexDigit.exists_value allowed.1 allowed.2
    refine ⟨[c], by simp [value, kept, same], fun rest => ?_⟩
    have read := readEscape_codePoint digits rest
    rw [source, List.append_assoc]
    exact cook_backslash read cooked
  | continuation lineEnd =>
    cases lineEnd with
    | lineFeed => exact ⟨[], rfl, fun rest => @cook_backslash '\n' rest _ _ _ rfl rfl⟩
    | carriageReturn =>
      exact ⟨"\r", rfl, fun rest => @cook_backslash '\r' rest _ _ _ rfl rfl⟩
    | both =>
      refine ⟨"\r\n", rfl, fun rest => ?_⟩
      have returned : cook (backslash :: .scalar '\r' :: .scalar '\n' :: rest) =
          (("\r" : Text) ++ ·) <$> cook (.scalar '\n' :: rest) := cook_backslash rfl rfl
      refine returned.trans ?_
      rw [cook_of_ne (by decide)]
      cases cook rest <;> rfl
    | lineSeparator =>
      exact ⟨"\u2028", rfl, fun rest => @cook_backslash '\u2028' rest _ _ _ rfl rfl⟩
    | paragraphSeparator =>
      exact ⟨"\u2029", rfl, fun rest => @cook_backslash '\u2029' rest _ _ _ rfl rfl⟩

/-- Cooking keeps something of every continuation but those after a line feed. -/
theorem kept_eq_nil_iff {part : Part} :
    part.kept = [] ↔ ∀ lineEnd, part = continuation lineEnd → lineEnd = .lineFeed := by
  cases part with
  | continuation lineEnd => cases lineEnd <;> simp [kept, LineEnd.text] <;> decide
  | _ => simp [kept]

end Part

theorem cook_source {parts : List Part} {quote : CodePoint}
    (allowed : ∀ part ∈ parts, part.Allowed quote) :
    ∃ text, cook (source parts) = .ok text ∧
      text.units = parts.flatMap fun part => part.value ++ part.kept := by
  induction parts with
  | nil => exact ⟨[], by simp [source, cook], rfl⟩
  | cons part parts ih =>
    obtain ⟨first, others⟩ := List.forall_mem_cons.1 allowed
    obtain ⟨head, headUnits, cooked⟩ := Part.cook_source first
    obtain ⟨rest, restCooked, restUnits⟩ := ih others
    refine ⟨head ++ rest, ?_, ?_⟩
    · rw [source, List.flatMap_cons, cooked, ← source, restCooked]
      rfl
    · rw [Text.units_append, headUnits, restUnits, List.flatMap_cons]

theorem flatMap_append_eq_iff {α β : Type} (values kept : α → List β) (as : List α) :
    (as.flatMap fun a => values a ++ kept a) = as.flatMap values ↔ ∀ a ∈ as, kept a = [] := by
  constructor
  · intro same
    have lengths := congrArg List.length same
    simp only [List.length_flatMap, List.length_append, List.sum_map_add,
      Nat.add_eq_left, List.sum_eq_zero_iff, List.forall_mem_map] at lengths
    exact fun a mem => List.length_eq_zero_iff.1 (lengths a mem)
  · exact fun none => List.flatMap_congr fun a mem => by rw [none a mem, List.append_nil]

/-- **The value of a literal.** Cooking the body of a string literal succeeds and gives the code
units that the language assigns to its parts, each continuation of a line being followed by those of
the end of the line, unless that is a line feed. So it gives the value of the literal just if no
line is continued after anything but a line feed. -/
theorem cook_of_body {quote : CodePoint} {parts : List Part} (body : IsBody quote parts) :
    ∃ text, cook (source parts) = .ok text ∧
      text.units = (parts.flatMap fun part => part.value ++ part.kept) ∧
      (text.units = parts.flatMap Part.value ↔
        ∀ lineEnd, .continuation lineEnd ∈ parts → lineEnd = .lineFeed) := by
  obtain ⟨text, cooked, units⟩ := cook_source body.allowed
  refine ⟨text, cooked, units, ?_⟩
  calc text.units = parts.flatMap Part.value
    _ ↔ ∀ part ∈ parts, part.kept = [] := by rw [units, flatMap_append_eq_iff]
    _ ↔ ∀ lineEnd, .continuation lineEnd ∈ parts → lineEnd = .lineFeed := by
      simp only [Part.kept_eq_nil_iff]
      grind

/-- A line that is continued after a line separator. -/
def separatedParts : List Part :=
  [.plain 'a', .continuation .lineSeparator, .plain 'b']

/-- A backslash before a line separator is no continuation to `cook`, which keeps the separator. -/
theorem cook_of_separatedParts :
    IsBody doubleQuote separatedParts ∧ source separatedParts = "a\\\u2028b" ∧
      separatedParts.flatMap Part.value = Text.units "ab" ∧
      ∃ text, cook (source separatedParts) = .ok text ∧ text.units ≠ Text.units "ab" := by
  have body : IsBody doubleQuote separatedParts := {
    allowed := by simp [separatedParts, Part.Allowed]; decide
    zero := by
      intro before after same
      have mem : Part.zero ∈ separatedParts := by simp [same]
      simp [separatedParts] at mem }
  obtain ⟨text, cooked, -, agrees⟩ := cook_of_body body
  refine ⟨body, rfl, rfl, text, cooked, fun same => ?_⟩
  cases agrees.1 same .lineSeparator (by simp [separatedParts])

end Literal

end ElementWrapper
