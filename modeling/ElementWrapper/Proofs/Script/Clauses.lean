import ElementWrapper.Module.Printer
import ElementWrapper.Proofs.Script.Scanning

/-!
Export clauses as the language reads them, and as they are printed. A clause stands for pairs: a
name of another module and the name under which it is exported (`Reads`). Names that are printed as
identifiers are read as what these stand for (`reads_printed_iff`). A name that is no identifier
cannot be read back, whatever it is and whatever is printed beside it, since it would have to be
read from a string, which takes more room than was printed (`isWord_of_reads_printed`).
-/

namespace ElementWrapper.Clause

/-! ## The grammar -/

/-- The tokens of one specifier with the pair they stand for. -/
inductive Specifier : List Token → Text × Text → Prop
  | same {token : Token} {name : Text} : token.name? = some name → Specifier [token] (name, name)
  | renamed {token other : Token} {name exported : Text} : token.name? = some name →
    other.name? = some exported → Specifier [token, .word "as" "as", other] (name, exported)

/-- The tokens after the opening brace of a clause with the pairs they stand for; there may be a
comma after the last specifier. -/
inductive Specifiers : List Token → List (Text × Text) → Prop
  | closed : Specifiers [.sign '\x7d'] []
  | last {tokens : List Token} {pair : Text × Text} : Specifier tokens pair →
    Specifiers (tokens ++ [.sign '\x7d']) [pair]
  | more {tokens rest : List Token} {pair : Text × Text} {pairs : List (Text × Text)} :
    Specifier tokens pair → Specifiers rest pairs →
    Specifiers (tokens ++ .sign ',' :: rest) (pair :: pairs)

/-- The pairs that the text of a clause stands for. -/
def Reads (names : Alphabet) (text : Text) (pairs : List (Text × Text)) : Prop :=
  ∃ tokens, Scans names text (.sign '\x7b' :: tokens) ∧ Specifiers tokens pairs

/-! ## Printed clauses -/

/-- The specifiers of some pairs. -/
def specifiers (pairs : List (Text × Text)) : List Node :=
  pairs.map fun (name, exported) =>
    .of (.exportSpecifier (.identifier name) (.identifier exported))

/-- The text of the clause of some pairs. -/
def printed (pairs : List (Text × Text)) : Text := Layout.exportClause (specifiers pairs)

theorem printed_cons (pair : Text × Text) (pairs : List (Text × Text)) :
    printed (pair :: pairs) =
      Layout.braced ((pair :: pairs).map fun pair => Layout.renamed pair.1 pair.2) := by
  rw [printed, Layout.exportClause, specifiers, List.map_map]
  rfl

/-- The text of a clause after its opening brace and a blank. -/
def remainder (pairs : List (Text × Text)) : Text :=
  Text.join ", " (pairs.map fun pair => Layout.renamed pair.1 pair.2) ++ " \x7d"

theorem printed_eq {pairs : List (Text × Text)} (nonempty : pairs ≠ []) :
    printed pairs = .scalar '\x7b' :: .scalar ' ' :: remainder pairs := by
  obtain ⟨pair, pairs, rfl⟩ := List.exists_cons_of_ne_nil nonempty
  rw [printed_cons, Layout.braced, remainder]
  simp only [List.append_assoc]
  rfl

theorem remainder_cons (pair next : Text × Text) (pairs : List (Text × Text)) :
    remainder (pair :: next :: pairs) =
      Layout.renamed pair.1 pair.2 ++ .scalar ',' :: .scalar ' ' :: remainder (next :: pairs) := by
  simp only [remainder, List.map_cons, Text.join, List.append_assoc]
  rfl

/-! ## Sizes -/

/-- The least size of a specifier. -/
def pairSize (pair : Text × Text) : Nat :=
  if pair.1 = pair.2 then size pair.1 else size pair.1 + 2 + size pair.2

/-- The least size of some specifiers, each with the comma or the brace after it. -/
def pairsSize (pairs : List (Text × Text)) : Nat := (pairs.map fun pair => pairSize pair + 1).sum

theorem size_renamed (pair : Text × Text) :
    size (Layout.renamed pair.1 pair.2) = pairSize pair := by
  have between : size " as " = 2 := by decide
  rw [Layout.renamed, pairSize]
  split
  · next same => rw [same]
  · rw [size_append, size_append, between]

/-- The text behind the opening brace has the least size that its pairs can have. -/
theorem size_remainder {pairs : List (Text × Text)} (nonempty : pairs ≠ []) :
    size (remainder pairs) = pairsSize pairs := by
  induction pairs with
  | nil => exact absurd rfl nonempty
  | cons pair pairs ih =>
    cases pairs with
    | nil =>
      have brace : size " \x7d" = 1 := by decide
      simp [remainder, Text.join, size_renamed, pairsSize, brace]
    | cons next pairs =>
      have comma : size [.scalar ','] = 1 := by decide
      have blank : size [.scalar ' '] = 0 := by decide
      have rest := ih (by simp)
      rw [remainder_cons, size_append, size_renamed, size_cons, comma, size_cons, blank, rest]
      simp only [pairsSize, List.map_cons, List.sum_cons]
      omega

/-- The size of some tokens. -/
def tokensSize (tokens : List Token) : Nat := (tokens.map Token.size).sum

theorem tokensSize_append (first second : List Token) :
    tokensSize (first ++ second) = tokensSize first + tokensSize second := by
  simp [tokensSize]

/-- A token is no smaller than its name, and as small only if it is a word. -/
theorem Token.size_of_name? {token : Token} {name : Text} (h : token.name? = some name) :
    Clause.size name ≤ token.size ∧
      (token.size ≤ Clause.size name → ∃ written, token = .word written name) := by
  cases token with
  | word written value =>
    cases h
    exact ⟨le_rfl, fun _ => ⟨written, rfl⟩⟩
  | string value =>
    cases h
    exact ⟨Nat.le_succ _, fun less => absurd less (Nat.not_succ_le_self _)⟩
  | sign => cases h

/-- The names of a specifier, where no room is left for strings. -/
theorem Specifier.size_le {tokens : List Token} {pair : Text × Text} (h : Specifier tokens pair) :
    pairSize pair ≤ tokensSize tokens ∧
      (tokensSize tokens ≤ pairSize pair →
        (∃ written, .word written pair.1 ∈ tokens) ∧ ∃ written, .word written pair.2 ∈ tokens) := by
  cases h with
  | @same token name named =>
    obtain ⟨least, bare⟩ := Token.size_of_name? named
    have one : tokensSize [token] = token.size := by simp [tokensSize]
    rw [one, pairSize, if_pos rfl]
    refine ⟨least, fun tight => ?_⟩
    obtain ⟨written, rfl⟩ := bare tight
    exact ⟨⟨written, by simp⟩, written, by simp⟩
  | @renamed token other name exported named renamed =>
    obtain ⟨least, bare⟩ := Token.size_of_name? named
    obtain ⟨leastOther, bareOther⟩ := Token.size_of_name? renamed
    have keyword : Clause.size "as" = 2 := by decide
    have all : tokensSize [token, .word "as" "as", other] = token.size + 2 + other.size := by
      simp [tokensSize, Token.size, keyword, Nat.add_assoc]
    rw [all, pairSize]
    dsimp only
    split
    · exact ⟨by omega, fun tight => by omega⟩
    · refine ⟨by omega, fun tight => ?_⟩
      obtain ⟨written, rfl⟩ := bare (by omega)
      obtain ⟨written', rfl⟩ := bareOther (by omega)
      exact ⟨⟨written, by simp⟩, written', by simp⟩

/-- The tokens of some pairs are no smaller than these pairs have to be. If they are as small, none
of the names is written as a string, since the quotes would take more room. -/
theorem Specifiers.size_le {tokens : List Token} {pairs : List (Text × Text)}
    (h : Specifiers tokens pairs) :
    pairsSize pairs ≤ tokensSize tokens ∧
      (tokensSize tokens ≤ pairsSize pairs → ∀ pair ∈ pairs,
        (∃ written, .word written pair.1 ∈ tokens) ∧ ∃ written, .word written pair.2 ∈ tokens) := by
  have one (c : Char) : tokensSize [.sign c] = 1 := rfl
  induction h with
  | closed => exact ⟨Nat.zero_le _, nofun⟩
  | @last tokens pair first =>
    obtain ⟨least, bare⟩ := first.size_le
    rw [tokensSize_append, one, pairsSize, List.map_singleton, List.sum_singleton]
    refine ⟨by omega, fun tight => List.forall_mem_singleton.2 ?_⟩
    obtain ⟨⟨written, mem⟩, written', mem'⟩ := bare (by omega)
    exact ⟨⟨written, List.mem_append_left _ mem⟩, written', List.mem_append_left _ mem'⟩
  | @more tokens rest pair pairs first _ ih =>
    obtain ⟨least, bare⟩ := first.size_le
    obtain ⟨leastRest, bareRest⟩ := ih
    have split : tokensSize (tokens ++ .sign ',' :: rest) =
        tokensSize tokens + (1 + tokensSize rest) := by
      rw [← one ',', ← tokensSize_append, ← tokensSize_append, List.singleton_append]
    have sum : pairsSize (pair :: pairs) = pairSize pair + 1 + pairsSize pairs := by
      simp [pairsSize]
    rw [split, sum]
    refine ⟨by omega, fun tight => List.forall_mem_cons.2 ⟨?_, fun other mem => ?_⟩⟩
    · obtain ⟨⟨written, mem⟩, written', mem'⟩ := bare (by omega)
      exact ⟨⟨written, List.mem_append_left _ mem⟩, written', List.mem_append_left _ mem'⟩
    · obtain ⟨⟨written, mem⟩, written', mem'⟩ := bareRest (by omega) other mem
      exact ⟨⟨written, by simp [mem]⟩, written', by simp [mem']⟩

variable {names : Alphabet}

/-- What a word stands for can be written as an identifier. -/
theorem isWord_of_scans {text : Text} {tokens : List Token} (h : Scans names text tokens)
    {written value : Text} (mem : .word written value ∈ tokens) : names.IsWord value := by
  induction h with
  | done => cases mem
  | white _ _ ih | lineComment _ _ _ ih | blockComment _ _ ih => exact ih mem
  | sign _ _ ih | string _ _ _ _ ih =>
    obtain ⟨⟨⟩⟩ | mem := List.mem_cons.1 mem
    exact ih mem
  | word _ word _ _ ih =>
    obtain same | mem := List.mem_cons.1 mem
    · obtain ⟨rfl, rfl⟩ := Token.word.inj same
      exact word
    · exact ih mem

/-- **What is no identifier is not read back.** If the printed clause of some pairs can be read as
these pairs, in whatever order, then all of the names are identifiers. -/
theorem isWord_of_reads_printed {pairs found : List (Text × Text)}
    (h : Reads names (printed pairs) found) (same : found.Perm pairs) :
    ∀ pair ∈ pairs, names.IsWord pair.1 ∧ names.IsWord pair.2 := by
  intro pair mem
  have nonempty : pairs ≠ [] := List.ne_nil_of_mem mem
  obtain ⟨tokens, scans, reads⟩ := h
  obtain ⟨-, bare⟩ := reads.size_le
  have room : tokensSize tokens + 1 ≤ pairsSize found + 1 := by
    have brace : size [.scalar '\x7b'] = 1 := by decide
    have blank : size [.scalar ' '] = 0 := by decide
    have sizes : pairsSize found = pairsSize pairs := (same.map _).sum_eq
    have written := scans.size_le
    rw [printed_eq nonempty, size_cons, brace, size_cons, blank, size_remainder nonempty,
      List.map_cons, List.sum_cons] at written
    rw [sizes, tokensSize, Nat.add_comm]
    exact written.trans (by omega)
  obtain ⟨⟨_, first⟩, _, second⟩ := bare (Nat.le_of_succ_le_succ room) pair (same.mem_iff.2 mem)
  exact ⟨isWord_of_scans scans (List.mem_cons_of_mem _ first),
    isWord_of_scans scans (List.mem_cons_of_mem _ second)⟩

/-! ## Identifiers -/

namespace Alphabet

/-- A name is written as an identifier that stands for a name. -/
def Means (names : Alphabet) (written value : Text) : Prop :=
  names.Spells written value ∧ names.IsWord value

theorem spells_ofChars {chars : List Char} (parts : ∀ c ∈ chars, names.part c) :
    names.Spells (Text.ofChars chars) (Text.ofChars chars) := by
  induction chars with
  | nil => exact .nil
  | cons c chars ih =>
    obtain ⟨first, others⟩ := List.forall_mem_cons.1 parts
    exact .char first (ih others)

theorem IsWord.means {name : Text} (h : names.IsWord name) : names.Means name name := by
  obtain ⟨first, rest, rfl, start, parts⟩ := id h
  exact ⟨spells_ofChars (List.forall_mem_cons.2 ⟨names.part_of_start _ start, parts⟩), h⟩

/-- A word of letters of ASCII is an identifier in every alphabet. -/
theorem isWord_of_isAlpha {first : Char} {rest : List Char} (h : (first :: rest).all Char.isAlpha) :
    names.IsWord (Text.ofChars (first :: rest)) := by
  obtain ⟨start, parts⟩ := List.forall_mem_cons.1 (List.all_eq_true.1 h)
  exact ⟨first, rest, rfl, names.start_of_isAlpha _ start,
    fun c mem => names.part_of_start _ (names.start_of_isAlpha _ (parts c mem))⟩

theorem endsWord_white {c : Char} (white : c.toNat ∈ whites) (rest : Text) :
    names.EndsWord (.scalar c :: rest) := by
  rintro _ ⟨⟩
  obtain ⟨part, slash⟩ := not_or.1 (@not_part_of_white names _ white)
  exact ⟨fun same => slash (CodePoint.scalar.inj same), Bool.eq_false_iff.2 part⟩

theorem endsWord_sign {c : Char} (sign : c ∈ signs) (rest : Text) :
    names.EndsWord (.scalar c :: rest) := by
  rintro _ ⟨⟩
  refine ⟨?_, Bool.eq_false_iff.2 fun part => names.not_delimiter c part ?_⟩
  · fin_cases sign <;> decide
  · fin_cases sign <;> decide

/-- Equal writings stand for one name. -/
theorem Means.unique {written value value' : Text} (h : names.Means written value)
    (h' : names.Means written value') : value = value' := by
  have ends : names.EndsWord [] := by rintro _ ⟨⟩
  exact (h.1.unique ends h'.1 ends rfl).2.1

end Alphabet

/-- The pair that is printed for some names, and the one they stand for. -/
structure IsMeant (names : Alphabet) (pair value : Text × Text) : Prop where
  name : names.Means pair.1 value.1
  exported : names.Means pair.2 value.2

/-- The tokens of the specifier that is printed for a pair. -/
def specifierTokens (pair value : Text × Text) : List Token :=
  if pair.1 = pair.2 then [.word pair.2 value.2]
  else [.word pair.1 value.1, .word "as" "as", .word pair.2 value.2]

/-- The tokens after the opening brace of the clause that is printed for some pairs. -/
def remainderTokens : List (Text × Text) → List (Text × Text) → List Token
  | pair :: pairs, value :: values =>
    specifierTokens pair value ++
      if pairs.isEmpty then [.sign '\x7d'] else .sign ',' :: remainderTokens pairs values
  | _, _ => []

/-- The specifier of a pair has the tokens of its names, in one way only. -/
theorem scans_renamed_iff {pair value : Text × Text} (h : IsMeant names pair value) {rest : Text}
    (ends : names.EndsWord rest) {tokens : List Token} :
    Scans names (Layout.renamed pair.1 pair.2 ++ rest) tokens ↔
      ∃ others, tokens = specifierTokens pair value ++ others ∧ Scans names rest others := by
  rw [Layout.renamed, specifierTokens]
  split
  · exact scans_word_iff h.exported.1 h.exported.2 ends
  · have keyword : names.Means "as" "as" := (@Alphabet.isWord_of_isAlpha names 'a' ['s'] rfl).means
    have split : pair.1 ++ " as " ++ pair.2 ++ rest = pair.1 ++ CodePoint.scalar ' ' ::
        (("as" : Text) ++ CodePoint.scalar ' ' :: (pair.2 ++ rest)) := by
      simp only [List.append_assoc]
      rfl
    have white : ' '.toNat ∈ whites := by decide
    rw [split, scans_word_iff h.name.1 h.name.2 (Alphabet.endsWord_white white _)]
    simp only [scans_white_iff white,
      scans_word_iff keyword.1 keyword.2 (Alphabet.endsWord_white white _),
      scans_word_iff h.exported.1 h.exported.2 ends]
    constructor
    · rintro ⟨_, rfl, _, rfl, others, rfl, h⟩
      exact ⟨others, rfl, h⟩
    · rintro ⟨others, rfl, h⟩
      exact ⟨_, rfl, _, rfl, others, rfl, h⟩

/-- Where the text ends there are no more tokens. -/
theorem scans_nil_iff {tokens : List Token} : Scans names [] tokens ↔ tokens = [] := by
  constructor
  · generalize same : ([] : Text) = text
    intro h
    cases h with
    | done => rfl
    | word spells word =>
      obtain ⟨_, _, rfl, -⟩ := spells.head word
      cases same
    | _ => cases same
  · rintro rfl
    exact .done

/-- The text behind the opening brace has the tokens of its names, in one way only. -/
theorem scans_remainder_iff {pairs values : List (Text × Text)} (nonempty : pairs ≠ [])
    (h : List.Forall₂ (IsMeant names) pairs values) {tokens : List Token} :
    Scans names (remainder pairs) tokens ↔ tokens = remainderTokens pairs values := by
  have white : ' '.toNat ∈ whites := by decide
  have comma : ',' ∈ signs := by decide
  have brace : '\x7d' ∈ signs := by decide
  induction h generalizing tokens with
  | nil => exact absurd rfl nonempty
  | @cons pair value pairs values first others ih =>
    cases others with
    | nil =>
      have split : remainder [pair] =
          Layout.renamed pair.1 pair.2 ++ [CodePoint.scalar ' ', CodePoint.scalar '\x7d'] := rfl
      rw [split, scans_renamed_iff first (Alphabet.endsWord_white white _)]
      simp only [scans_white_iff white, scans_sign_iff brace, scans_nil_iff, remainderTokens]
      simp
    | @cons next value' pairs values second others =>
      rw [remainder_cons, scans_renamed_iff first (Alphabet.endsWord_sign comma _)]
      simp only [scans_sign_iff comma, scans_white_iff white, ih (by simp), remainderTokens]
      simp

/-! ## Reading back -/

/-- The tokens of a specifier are no signs. -/
theorem Specifier.forall_name? {tokens : List Token} {pair : Text × Text}
    (h : Specifier tokens pair) : ∀ token ∈ tokens, token.name?.isSome := by
  cases h with
  | same named => exact List.forall_mem_singleton.2 (by rw [named]; rfl)
  | renamed named renamed =>
    refine List.forall_mem_cons.2 ⟨by rw [named]; rfl, List.forall_mem_cons.2 ⟨rfl, ?_⟩⟩
    exact List.forall_mem_singleton.2 (by rw [renamed]; rfl)

/-- The tokens of a specifier stand for one pair only. -/
theorem Specifier.unique {tokens : List Token} {pair other : Text × Text}
    (h : Specifier tokens pair) (h' : Specifier tokens other) : pair = other := by
  cases h with
  | same named =>
    cases h' with
    | same named' =>
      obtain rfl := Option.some.inj (named.symm.trans named')
      rfl
  | renamed named renamed =>
    cases h' with
    | renamed named' renamed' =>
      obtain rfl := Option.some.inj (named.symm.trans named')
      obtain rfl := Option.some.inj (renamed.symm.trans renamed')
      rfl

/-- The tokens of a printed specifier stand for the pair that is meant. -/
theorem specifier_specifierTokens {pair value : Text × Text} (h : IsMeant names pair value) :
    Specifier (specifierTokens pair value) value := by
  obtain ⟨name, exported⟩ := pair
  obtain ⟨nameValue, exportedValue⟩ := value
  rw [specifierTokens]
  split
  · next same =>
    obtain rfl : name = exported := same
    obtain rfl : nameValue = exportedValue := h.name.unique h.exported
    exact .same rfl
  · exact .renamed rfl rfl

/-- A specifier ends at the first sign. -/
theorem Specifier.end_unique {tokens tokens' rest rest' : List Token} {pair pair' : Text × Text}
    {c d : Char} (h : Specifier tokens pair) (h' : Specifier tokens' pair')
    (same : tokens ++ .sign c :: rest = tokens' ++ .sign d :: rest') :
    tokens = tokens' ∧ c = d ∧ rest = rest' := by
  have upTo (tokens rest : List Token) (c : Char)
      (named : ∀ token ∈ tokens, (Token.name? token).isSome) :
      (tokens ++ .sign c :: rest).takeWhile (fun token => token.name?.isSome) = tokens := by
    rw [List.takeWhile_append_of_pos named, List.takeWhile_cons_of_neg (by simp [Token.name?]),
      List.append_nil]
  obtain rfl : tokens = tokens' := by
    rw [← upTo tokens rest c h.forall_name?, same, upTo tokens' rest' d h'.forall_name?]
  obtain ⟨sign, rest⟩ := List.cons.inj (List.append_cancel_left same)
  exact ⟨rfl, Token.sign.inj sign, rest⟩

/-- Behind the first specifier there is the end of the clause, or a comma with the other
specifiers. -/
theorem specifiers_append_iff {tokens rest : List Token} {pair : Text × Text} {c : Char}
    (first : Specifier tokens pair) {pairs : List (Text × Text)} :
    Specifiers (tokens ++ .sign c :: rest) pairs ↔
      (c = '\x7d' ∧ rest = [] ∧ pairs = [pair]) ∨
        (c = ',' ∧ ∃ others, pairs = pair :: others ∧ Specifiers rest others) := by
  constructor
  · generalize same : tokens ++ Token.sign c :: rest = all
    intro h
    cases h with
    | closed =>
      cases first with
      | same named | renamed named =>
        obtain ⟨rfl, -⟩ := List.cons.inj same
        cases named
    | last only =>
      obtain ⟨rfl, rfl, rfl⟩ := first.end_unique only same
      exact .inl ⟨rfl, rfl, by rw [first.unique only]⟩
    | more only others =>
      obtain ⟨rfl, rfl, rfl⟩ := first.end_unique only same
      exact .inr ⟨rfl, _, by rw [first.unique only], others⟩
  · rintro (⟨rfl, rfl, rfl⟩ | ⟨rfl, others, rfl, h⟩)
    · exact .last first
    · exact .more first h

/-- The tokens behind the opening brace stand for the pairs that are meant, and for no others. -/
theorem specifiers_remainderTokens_iff {pairs values : List (Text × Text)} (nonempty : pairs ≠ [])
    (h : List.Forall₂ (IsMeant names) pairs values) {found : List (Text × Text)} :
    Specifiers (remainderTokens pairs values) found ↔ found = values := by
  induction h generalizing found with
  | nil => exact absurd rfl nonempty
  | @cons pair value pairs values first others ih =>
    have specifier := specifier_specifierTokens first
    cases others with
    | nil =>
      rw [remainderTokens, List.isEmpty_nil, if_pos rfl, specifiers_append_iff specifier]
      simp
    | cons =>
      rw [remainderTokens, List.isEmpty_cons, if_neg Bool.false_ne_true,
        specifiers_append_iff specifier]
      simp only [ih (by simp)]
      simp

/-- **Identifiers are read back.** A clause that is printed for names that are written as
identifiers is read as what these stand for, and as nothing else. -/
theorem reads_printed_iff {pairs values : List (Text × Text)} (nonempty : pairs ≠ [])
    (h : List.Forall₂ (IsMeant names) pairs values) {found : List (Text × Text)} :
    Reads names (printed pairs) found ↔ found = values := by
  have brace : '\x7b' ∈ signs := by decide
  have white : ' '.toNat ∈ whites := by decide
  simp only [Reads, printed_eq nonempty, scans_sign_iff brace, scans_white_iff white,
    scans_remainder_iff nonempty h]
  constructor
  · rintro ⟨tokens, ⟨_, same, rfl⟩, reads⟩
    obtain ⟨-, rfl⟩ := List.cons.inj same
    exact (specifiers_remainderTokens_iff nonempty h).1 reads
  · rintro rfl
    exact ⟨_, ⟨_, rfl, rfl⟩, (specifiers_remainderTokens_iff nonempty h).2 rfl⟩

end ElementWrapper.Clause
