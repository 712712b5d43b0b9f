import ElementWrapper.Literal.Cooked
import ElementWrapper.Literal.Quoted
import ElementWrapper.Proofs.Result
import ElementWrapper.Source.Literals

/-!
Quoting and cooking. A code point is written as it is or as one escape, and `escape_cases` says all
that is needed of either: which code points of it a lexer takes notice of, how long the escape is,
and that it cooks to the code point it was written for. What holds of the body of a literal follows
from this along the quoted text: it stays on one line, the quotes in it are escaped, a lexer finds
its end where it ends, and it cooks to that text (`quote_roundTrip`).
-/

namespace ElementWrapper.Literal

/-- The code point that begins an escape. -/
def backslash : CodePoint := '\\'

/-- The code point around a literal. -/
def doubleQuote : CodePoint := '"'

/-- A code point that ends a line of a module. -/
def endsLine (c : CodePoint) : Bool := c.all Source.endsComment

/-- A code point that means nothing but itself inside a literal. -/
def IsPlain (c : CodePoint) : Prop := c ≠ backslash ∧ c ≠ doubleQuote ∧ endsLine c = false

/-- The body of the literal whose opening quote has been read, and what follows its closing quote. A
backslash takes the next code point with it, and no line ends in a literal otherwise. -/
def readBody : Text → Option (Text × Text)
  | [] => none
  | .scalar '"' :: rest => some ([], rest)
  | .scalar '\\' :: c :: rest =>
    (readBody rest).map fun (body, after) => (backslash :: c :: body, after)
  | c :: rest =>
    if endsLine c then none else (readBody rest).map fun (body, after) => (c :: body, after)

/-- How many backslashes a text ends with. -/
def backslashes (text : Text) : Nat := (text.reverse.takeWhile (· = backslash)).length

/-! ## One code point -/

theorem cook_of_ne {c : CodePoint} (ne : c ≠ backslash) (rest : Text) :
    cook (c :: rest) = (c :: ·) <$> cook rest := by
  cases rest with
  | nil => simp [cook]
  | cons next rest =>
    rw [cook]
    · rfl
    · simp
    · exact fun _ _ same _ => ne same

theorem cook_backslash {e : CodePoint} {rest after : Text} {escape : Escape} {text : Text}
    (read : readEscape e rest = (escape, after)) (value : escape.value = .ok text) :
    cook (backslash :: e :: rest) = (text ++ ·) <$> cook after := by
  rw [backslash, cook, read, value]
  rfl

theorem isPlain_of_isHexDigit {c : Char} (hex : Source.isHexDigit c) : IsPlain c := by
  refine ⟨?_, ?_, ?_⟩
  · rintro ⟨⟩
    cases hex
  · rintro ⟨⟩
    cases hex
  · refine Bool.eq_false_iff.2 fun ends => ?_
    have mem : c ∈ ['\n', '\r', '\u2028', '\u2029'] := List.contains_iff_mem.1 ends
    fin_cases mem <;> cases hex

/-- After a backslash, a character with a tail behind it is an escape for a code point. -/
structure StandsFor (c : CodePoint) (e : Char) (tail : List Char) : Prop where
  endsLine : endsLine e = false
  plain : ∀ d ∈ tail, IsPlain (.scalar d)
  bare : .scalar e = backslash → tail = []
  length : ∀ rest, Source.escapeLength (e :: (tail ++ rest)) = some (tail.length + 1)
  cook : ∀ rest, cook (backslash :: (Text.ofChars (e :: tail) ++ rest)) = (c :: ·) <$> cook rest

theorem StandsFor.letter {c : CodePoint} {e : Char} (stays : Literal.endsLine e = false)
    (length : ∀ rest, Source.escapeLength (e :: rest) = some 1)
    (read : ∀ rest, readEscape e rest = (.plain c, rest)) : StandsFor c e [] where
  endsLine := stays
  plain := nofun
  bare _ := rfl
  length := length
  cook rest := cook_backslash (read rest) rfl

/-- A hexadecimal escape stands for a code point if both lexers take all of its digits. -/
theorem StandsFor.numeric {c : CodePoint} {e : Char} {digits : List Char}
    (ne : .scalar e ≠ backslash) (stays : Literal.endsLine e = false)
    (hex : digits.all Source.isHexDigit)
    (length : ∀ rest, Source.escapeLength (e :: (digits ++ rest)) = some (digits.length + 1))
    (read : ∀ rest, readEscape e (Text.ofChars digits ++ rest) =
      (.numeric (Text.ofChars digits), rest))
    (value : (Escape.numeric (Text.ofChars digits)).value = .ok [c]) : StandsFor c e digits where
  endsLine := stays
  plain d mem := isPlain_of_isHexDigit (List.all_eq_true.1 hex d mem)
  bare same := absurd same ne
  length := length
  cook rest := cook_backslash (read rest) value

/-- How a code point is written: as it is, or as an escape that stands for it. -/
theorem escape_cases (c : CodePoint) :
    IsPlain c ∧ escape c = [c] ∨
    ∃ e tail, escape c = backslash :: Text.ofChars (e :: tail) ∧ StandsFor c e tail := by
  rw [escape.eq_def]
  split
  · exact .inr ⟨'\\', [], rfl, .letter rfl (fun _ => rfl) fun _ => rfl⟩
  · exact .inr ⟨'"', [], rfl, .letter rfl (fun _ => rfl) fun _ => rfl⟩
  · exact .inr ⟨'n', [], rfl, .letter rfl (fun _ => rfl) fun _ => rfl⟩
  · exact .inr ⟨'r', [], rfl, .letter rfl (fun _ => rfl) fun _ => rfl⟩
  · exact .inr ⟨'t', [], rfl, .letter rfl (fun _ => rfl) fun _ => rfl⟩
  · exact .inr ⟨'b', [], rfl, .letter rfl (fun _ => rfl) fun _ => rfl⟩
  · exact .inr ⟨'f', [], rfl, .letter rfl (fun _ => rfl) fun _ => rfl⟩
  · exact .inr ⟨'v', [], rfl, .letter rfl (fun _ => rfl) fun _ => rfl⟩
  · have length (rest : List Char) : Source.escapeLength ('x' :: '0' :: '0' :: rest) = some 3 := by
      simp [Source.escapeLength, Source.isHexDigit]
    have value : (Escape.numeric "00").value = .ok [.scalar '\x00'] := by decide +kernel
    exact .inr ⟨'x', ['0', '0'], rfl,
      .numeric (by decide) rfl rfl length (fun _ => rfl) value⟩
  · have length (rest : List Char) :
        Source.escapeLength ('u' :: '2' :: '0' :: '2' :: '8' :: rest) = some 5 := by
      simp [Source.escapeLength, Source.codePointEscape, Source.isHexDigit]
    have value : (Escape.numeric "2028").value = .ok [.scalar '\u2028'] := by decide +kernel
    exact .inr ⟨'u', ['2', '0', '2', '8'], rfl,
      .numeric (by decide) rfl rfl length (fun _ => rfl) value⟩
  · have length (rest : List Char) :
        Source.escapeLength ('u' :: '2' :: '0' :: '2' :: '9' :: rest) = some 5 := by
      simp [Source.escapeLength, Source.codePointEscape, Source.isHexDigit]
    have value : (Escape.numeric "2029").value = .ok [.scalar '\u2029'] := by decide +kernel
    exact .inr ⟨'u', ['2', '0', '2', '9'], rfl,
      .numeric (by decide) rfl rfl length (fun _ => rfl) value⟩
  · refine .inl ⟨⟨?_, ?_, ?_⟩, rfl⟩
    · simp_all [backslash]
    · simp_all [doubleQuote]
    · cases c <;> simp_all [endsLine, CodePoint.all, Source.endsComment]

/-! ## The body of a literal -/

theorem quoteBody_cons (c : CodePoint) (value : Text) :
    quoteBody (c :: value) = escape c ++ quoteBody value := rfl

theorem cook_quoteBody (value : Text) : cook (quoteBody value) = .ok value := by
  induction value with
  | nil => simp [quoteBody, cook]
  | cons c value ih =>
    rw [quoteBody_cons]
    obtain ⟨plain, written⟩ | ⟨e, tail, written, escapes⟩ := escape_cases c
    · rw [written, List.singleton_append, cook_of_ne plain.1, ih]
      rfl
    · rw [written, List.cons_append, escapes.cook, ih]
      rfl

theorem not_endsLine_of_mem_escape {c d : CodePoint} (mem : d ∈ escape c) : endsLine d = false := by
  obtain ⟨plain, written⟩ | ⟨e, tail, written, escapes⟩ := escape_cases c
  · rw [written, List.mem_singleton] at mem
    exact mem ▸ plain.2.2
  · rw [written, Text.ofChars, List.map_cons, List.mem_cons, List.mem_cons] at mem
    obtain rfl | rfl | mem := mem
    · rfl
    · exact escapes.endsLine
    · obtain ⟨digit, found, rfl⟩ := List.mem_map.1 mem
      exact (escapes.plain digit found).2.2

theorem not_endsLine_of_mem_quoteBody {value : Text} {d : CodePoint} (mem : d ∈ quoteBody value) :
    endsLine d = false := by
  obtain ⟨c, -, mem⟩ := List.mem_flatMap.1 mem
  exact not_endsLine_of_mem_escape mem

/-! ## Quotes -/

theorem backslashes_append_of_even {before : Text} (even : Even (backslashes before))
    (after : Text) :
    Odd (backslashes (before ++ after)) ↔ Odd (backslashes after) := by
  simp only [backslashes, List.reverse_append, List.takeWhile_append] at even ⊢
  split
  · next all =>
    rw [all, List.length_append, Nat.odd_add]
    exact iff_true_right even
  · rfl

theorem backslashes_concat_of_ne {init : Text} {last : CodePoint} (ne : last ≠ backslash) :
    backslashes (init ++ [last]) = 0 := by
  simp [backslashes, ne]

/-- What stands for a code point ends with a backslash only if that is the second of a pair. -/
theorem even_backslashes_escape (c : CodePoint) : Even (backslashes (escape c)) := by
  obtain ⟨plain, written⟩ | ⟨e, tail, written, escapes⟩ := escape_cases c
  · rw [written, ← List.nil_append [c], backslashes_concat_of_ne plain.1]
    exact Even.zero
  rw [written]
  obtain rfl | ⟨init, last, rfl⟩ := List.eq_nil_or_concat tail
  · by_cases twice : .scalar e = backslash
    · rw [Text.ofChars, List.map_cons, twice]
      exact even_two
    · rw [Text.ofChars, List.map_cons, List.map_nil, ← List.singleton_append,
        backslashes_concat_of_ne twice]
      exact Even.zero
  · have plain := escapes.plain last (by simp)
    have split : backslash :: Text.ofChars (e :: (init.concat last)) =
        (backslash :: Text.ofChars (e :: init)) ++ [.scalar last] := by
      simp [Text.ofChars]
    rw [split, backslashes_concat_of_ne plain.1]
    exact Even.zero

/-- A quote in the writing of one code point stands behind a single backslash. -/
theorem eq_backslash_of_escape {c : CodePoint} {before after : Text}
    (h : escape c = before ++ doubleQuote :: after) : before = [backslash] := by
  obtain ⟨plain, written⟩ | ⟨e, tail, written, escapes⟩ := escape_cases c
  · rw [written] at h
    have mem : doubleQuote ∈ [c] := h ▸ List.mem_append_right before List.mem_cons_self
    exact absurd (List.mem_singleton.1 mem).symm plain.2.1
  rw [written, Text.ofChars, List.map_cons] at h
  cases before with
  | nil => cases (List.cons.inj h).1
  | cons first before =>
    obtain ⟨rfl, inner⟩ := List.cons.inj h
    cases before with
    | nil => rfl
    | cons second before =>
      have mem : doubleQuote ∈ tail.map CodePoint.scalar := by
        rw [(List.cons.inj inner).2]
        exact List.mem_append_right before List.mem_cons_self
      obtain ⟨d, mem, same⟩ := List.mem_map.1 mem
      exact absurd same (escapes.plain d mem).2.1

/-- Every quote in a body is escaped. -/
theorem odd_backslashes_of_quoteBody {value before after : Text}
    (h : quoteBody value = before ++ doubleQuote :: after) : Odd (backslashes before) := by
  induction value generalizing before with
  | nil => simp [quoteBody] at h
  | cons c value ih =>
    rw [quoteBody_cons] at h
    obtain ⟨later, rfl, rest⟩ | ⟨quoted, written, rest⟩ := List.append_eq_append_iff.1 h
    · exact (backslashes_append_of_even (even_backslashes_escape c) later).2 (ih rest)
    · cases quoted with
      | nil =>
        -- The code point is written before the quote, which then begins the rest of the body.
        have odd : Odd (backslashes []) := ih rest.symm
        exact absurd odd (by decide)
      | cons first quoted =>
        obtain ⟨rfl, -⟩ := List.cons.inj rest
        rw [eq_backslash_of_escape written]
        exact odd_one

/-! ## Lexers -/

theorem readBody_of_isPlain {c : CodePoint} (plain : IsPlain c) (rest : Text) :
    readBody (c :: rest) = (readBody rest).map fun (body, after) => (c :: body, after) := by
  rw [readBody]
  · rw [plain.2.2]
    rfl
  · exact plain.2.1
  · exact fun _ _ same _ => plain.1 same

theorem readBody_of_plain {tail : List Char} (plain : ∀ d ∈ tail, IsPlain (.scalar d))
    (rest : Text) :
    readBody (Text.ofChars tail ++ rest) =
      (readBody rest).map fun (body, after) => (Text.ofChars tail ++ body, after) := by
  induction tail with
  | nil => simp [Text.ofChars]
  | cons d tail ih =>
    obtain ⟨first, others⟩ := List.forall_mem_cons.1 plain
    rw [Text.ofChars, List.map_cons, List.cons_append, readBody_of_isPlain first]
    exact (congrArg _ (ih others)).trans (Option.map_map ..)

theorem readBody_escape (e : Char) (tail : List Char) (rest : Text) :
    readBody (backslash :: (Text.ofChars (e :: tail) ++ rest)) =
      (readBody (Text.ofChars tail ++ rest)).map fun (body, after) =>
        (backslash :: .scalar e :: body, after) := by
  rw [backslash, Text.ofChars, List.map_cons, List.cons_append, readBody]
  rfl

/-- A lexer ends a literal where it ends. -/
theorem readBody_quoteBody (value rest : Text) :
    readBody (quoteBody value ++ doubleQuote :: rest) = some (quoteBody value, rest) := by
  induction value with
  | nil => rfl
  | cons c value ih =>
    rw [quoteBody_cons, List.append_assoc]
    obtain ⟨plain, written⟩ | ⟨e, tail, written, escapes⟩ := escape_cases c
    · rw [written, List.singleton_append, readBody_of_isPlain plain, ih]
      rfl
    · rw [written, List.cons_append, readBody_escape, readBody_of_plain escapes.plain, ih]
      rfl

/-- The lexer of modules passes a plain character by. -/
theorem stringTail_of_isPlain {d : Char} (plain : IsPlain d) (fuel : Nat) (rest : List Char) :
    Source.stringTail '"' (fuel + 1) (d :: rest) =
      (· + 1) <$> Source.stringTail '"' fuel rest := by
  have quote : d ≠ '"' := fun same => plain.2.1 (same ▸ rfl)
  have slash : d ≠ '\\' := fun same => plain.1 (same ▸ rfl)
  have stays : (d = '\n' || d = '\r') = false := by
    refine Bool.eq_false_iff.2 fun ends => ?_
    obtain rfl | rfl : d = '\n' ∨ d = '\r' := by simpa using ends
    all_goals cases plain.2.2
  rw [Source.stringTail, if_neg quote, if_neg slash, stays]
  rfl

theorem stringTail_escape {rest : List Char} {n : Nat} (length : Source.escapeLength rest = some n)
    (fuel : Nat) :
    Source.stringTail '"' (fuel + 1) ('\\' :: rest) =
      (· + (n + 1)) <$> Source.stringTail '"' fuel (rest.drop n) := by
  rw [Source.stringTail, if_neg (by decide), if_pos rfl, length]
  rfl

/-- The lexer of modules ends a literal there, too, if the literal has an encoding at all. -/
theorem stringTail_of_quoteBody {value : Text} {written rest : List Char} {fuel : Nat}
    (h : quoteBody value = Text.ofChars written) (enough : written.length < fuel) :
    Source.stringTail '"' fuel (written ++ '"' :: rest) = some (written.length + 1) := by
  induction value generalizing written fuel with
  | nil =>
    obtain rfl : written = [] := List.map_eq_nil_iff.1 h.symm
    obtain ⟨fuel, rfl⟩ := Nat.exists_eq_add_one.2 enough
    rfl
  | cons c value ih =>
    obtain ⟨fuel, rfl⟩ := Nat.exists_eq_add_one.2 (Nat.zero_lt_of_lt enough)
    rw [quoteBody_cons] at h
    obtain ⟨plain, single⟩ | ⟨e, tail, escaped, escapes⟩ := escape_cases c
    · rw [single] at h
      obtain ⟨d, later, rfl, rfl, others⟩ := List.map_eq_cons_iff.1 h.symm
      rw [List.length_cons] at enough
      rw [List.cons_append, stringTail_of_isPlain plain, ih others.symm (by omega)]
      rfl
    · rw [escaped] at h
      obtain ⟨d, more, rfl, same, body⟩ := List.map_eq_cons_iff.1 h.symm
      obtain ⟨front, later, rfl, both, others⟩ := List.map_eq_append_iff.1 body
      obtain rfl : d = '\\' := CodePoint.scalar.inj same
      obtain rfl : front = e :: tail :=
        List.map_injective_iff.2 (fun _ _ => CodePoint.scalar.inj) both
      rw [List.length_cons, List.length_append, List.length_cons] at enough
      rw [List.cons_append, List.append_assoc, List.cons_append,
        stringTail_escape (escapes.length _)]
      rw [List.drop_succ_cons, List.drop_left, ih others.symm (by omega)]
      simp only [Option.map_eq_map, Option.map_some, List.length_cons, List.length_append]
      congr 1
      omega

/-- The lexer of modules takes a quoted text as one string, up to the closing quote and no
further. -/
theorem stringLength_of_quote {value : Text} {written : List Char}
    (h : quote value = Text.ofChars written) (rest : List Char) :
    Source.stringLength (written ++ rest) = some written.length := by
  obtain ⟨first, more, rfl, opening, body⟩ := List.map_eq_cons_iff.1 h.symm
  obtain ⟨inner, last, rfl, within, closing⟩ := List.map_eq_append_iff.1 body
  obtain rfl : first = '"' := CodePoint.scalar.inj opening
  obtain rfl : last = ['"'] :=
    List.map_injective_iff.2 (fun _ _ => CodePoint.scalar.inj) closing
  have found : Source.stringTail '"' ((inner ++ ['"'] ++ rest).length + 1) (inner ++ '"' :: rest) =
      some (inner.length + 1) := stringTail_of_quoteBody within.symm (by simp)
  rw [List.append_assoc, List.singleton_append] at found
  rw [List.cons_append, List.append_assoc, List.singleton_append, Source.stringLength,
    if_pos (by rfl), found]
  simp

/-! ## Rounds -/

/-- What is replaced in a text that is to stand in a literal, and by what. -/
def rounds : List (CodePoint × Text) :=
  [('\\', "\\\\"), ('"', "\\\""), ('\n', "\\n"), ('\r', "\\r"), ('\t', "\\t"), ('\x08', "\\b"),
    ('\x0c', "\\f"), ('\x0b', "\\v"), ('\x00', "\\x00"), ('\u2028', "\\u2028"),
    ('\u2029', "\\u2029")]

/-- A text with every occurrence of a code point replaced. -/
def replaceAll (text : Text) (round : CodePoint × Text) : Text :=
  text.flatMap fun c => if c = round.1 then round.2 else [c]

theorem foldl_replaceAll_append (rounds : List (CodePoint × Text)) (first second : Text) :
    rounds.foldl replaceAll (first ++ second) =
      rounds.foldl replaceAll first ++ rounds.foldl replaceAll second := by
  induction rounds generalizing first second with
  | nil => rfl
  | cons round rounds ih =>
    rw [List.foldl_cons, replaceAll, List.flatMap_append]
    exact ih _ _

theorem replaceAll_of_ne {c : CodePoint} {round : CodePoint × Text} (ne : c ≠ round.1) :
    replaceAll [c] round = [c] := by
  rw [replaceAll, List.flatMap_singleton, if_neg ne]

/-- A code point of its own stays if no round is for it. -/
theorem foldl_replaceAll_of_notMem {c : CodePoint} {rounds : List (CodePoint × Text)}
    (h : c ∉ rounds.map Prod.fst) : rounds.foldl replaceAll [c] = [c] := by
  induction rounds with
  | nil => rfl
  | cons round rounds ih =>
    rw [List.map_cons, List.mem_cons, not_or] at h
    rw [List.foldl_cons, replaceAll_of_ne h.1, ih h.2]

theorem escape_of_notMem {c : CodePoint} (h : c ∉ rounds.map Prod.fst) : escape c = [c] := by
  unfold escape
  split <;> first | rfl | exact absurd (by decide) h

theorem foldl_replaceAll_singleton (c : CodePoint) : rounds.foldl replaceAll [c] = escape c := by
  by_cases special : c ∈ rounds.map Prod.fst
  · have each : ∀ c ∈ rounds.map Prod.fst, rounds.foldl replaceAll [c] = escape c := by
      decide +kernel
    exact each c special
  · rw [foldl_replaceAll_of_notMem special, escape_of_notMem special]

/-- Writing a text code point by code point comes to the same as replacing in the whole of it round
by round. The round of the backslash has to be the first, since the others write backslashes. -/
theorem quoteBody_eq_foldl (value : Text) : quoteBody value = rounds.foldl replaceAll value := by
  induction value with
  | nil => rfl
  | cons c value ih =>
    rw [quoteBody_cons, ih, ← foldl_replaceAll_singleton, ← foldl_replaceAll_append]
    rfl

/-- **A literal that is quoted reads back.** Its body stays on one line, no quote in it is without a
backslash that escapes it, a lexer ends it at its last code point, and so does the lexer of modules,
whatever comes next; cooking its body gives the text that was quoted. -/
theorem quote_roundTrip (value : Text) :
    quote value = doubleQuote :: quoteBody value ++ [doubleQuote] ∧
    (∀ c ∈ quoteBody value, endsLine c = false) ∧
    (∀ before after, quoteBody value = before ++ doubleQuote :: after → Odd (backslashes before)) ∧
    (∀ rest, readBody (quoteBody value ++ doubleQuote :: rest) = some (quoteBody value, rest)) ∧
    (∀ written, quote value = Text.ofChars written →
      ∀ rest, Source.stringLength (written ++ rest) = some written.length) ∧
    cook (quoteBody value) = .ok value := by
  refine ⟨rfl, fun _ => not_endsLine_of_mem_quoteBody, fun _ _ => odd_backslashes_of_quoteBody,
    readBody_quoteBody value, fun _ => stringLength_of_quote, cook_quoteBody value⟩

end ElementWrapper.Literal
