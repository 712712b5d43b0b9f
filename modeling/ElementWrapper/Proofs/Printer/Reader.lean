import ElementWrapper.Proofs.Literal.Quotation
import ElementWrapper.Proofs.Printer.Shapes

/-!
A reader for the expressions that a wrapper prints. It checks nothing: it is only meant for texts
that were printed, and `Stands.reads` says that of the text of an expression, whatever follows it,
it reads the essence of that expression and leaves what follows.

Members and calls lean to the left, so the reader first reads a name or a string and then one suffix
after the other. An operand is therefore followed along all of its suffixes (`Reads` at
`Place.operand`), and not only up to its own end.
-/

namespace ElementWrapper

namespace Printer

open Literal

section

variable {α : Type}

/-- A name and what follows it. -/
def readName (text : Text) : Text × Text :=
  (text.takeWhile (·.all isNamePart), text.dropWhile (·.all isNamePart))

/-- The value of a literal and what follows it. -/
def readString (text : Text) : Text × Text :=
  match readBody (text.drop 1) with
  | some (body, rest) => ((cook body).toOption.getD [], rest)
  | none => ([], [])

/-- The name of a key and what follows it. A line feed at the end of a name is part of the name. -/
def readKey (text : Text) : Text × Text :=
  if text.head? = some doubleQuote then readString text
  else
    let (name, rest) := readName text
    if rest.head? = some (.scalar '\n') then (name ++ [.scalar '\n'], rest.drop 1) else (name, rest)

/-- Items that are separated by a comma and one more code point. -/
def readItems (read : Text → α × Text) : Nat → Text → List α × Text
  | 0, text => ([], text)
  | fuel + 1, text =>
    let (item, rest) := read text
    if rest.head? = some (.scalar ',') then
      let (items, rest) := readItems read fuel (rest.drop 2)
      (item :: items, rest)
    else ([item], rest)

/-- The members and calls that follow an operand. -/
def readSuffixes (read : Text → Node × Text) : Nat → Node → Text → Node × Text
  | 0, operand, text => (operand, text)
  | fuel + 1, operand, text =>
    if text.head? = some (.scalar '.') then
      let (name, rest) := readName (text.drop 1)
      readSuffixes read fuel (.of (.member operand (.identifier name) false)) rest
    else if text.head? = some (.scalar '(') then
      if (text.drop 1).head? = some (.scalar ')') then
        readSuffixes read fuel (.of (.call operand [])) (text.drop 2)
      else
        let (arguments, rest) := readItems read fuel (text.drop 1)
        readSuffixes read fuel (.of (.call operand arguments)) (rest.drop 1)
    else (operand, text)

variable (layout : Layout)

/-- An entry of an object at a depth. -/
def readEntry (level : Int) (read : Text → Node × Text) (text : Text) : Node × Text :=
  let (name, rest) := readKey (text.drop (layout.margin level).length)
  let (value, rest) := read (rest.drop (": " : Text).length)
  (.of (.property (.string name) value false), rest)

/-- An expression that begins at a depth. -/
def readExpression : Nat → Int → Text → Node × Text
  | 0, _, text => (.string [], text)
  | fuel + 1, level, text =>
    if text.head? = some doubleQuote then
      let (value, rest) := readString text
      readSuffixes (readExpression fuel level) fuel (.string value) rest
    else if text.head? = some (.scalar '\x7b') then
      if (text.drop 1).head? = some (.scalar '\x7d') then (.of (.object []), text.drop 2)
      else
        let read := readEntry layout (level + 1) (readExpression fuel (level + 1))
        let (entries, rest) := readItems read fuel (text.drop 2)
        (.of (.object entries), ((rest.drop 1).drop (layout.margin level).length).drop 1)
    else
      let (name, rest) := readName text
      if name = "true" then (.of (.boolean true), rest)
      else if name = "false" then (.of (.boolean false), rest)
      else readSuffixes (readExpression fuel level) fuel (.identifier name) rest

end

/-! ## Names and strings -/

/-- No name goes on with the text. -/
def EndsName (rest : Text) : Prop := ∀ c ∈ rest.head?, c.all isNamePart = false

/-- No expression goes on with the text. -/
def EndsValue (rest : Text) : Prop :=
  EndsName rest ∧ rest.head? ≠ some (.scalar '.') ∧ rest.head? ≠ some (.scalar '(')

/-- A name is read up to the first code point that cannot be in a name. -/
theorem readName_append {name rest : Text} (h : ∀ c ∈ name, c.all isNamePart)
    (ends : EndsName rest) : readName (name ++ rest) = (name, rest) := by
  have stops : rest.takeWhile (·.all isNamePart) = [] ∧
      rest.dropWhile (·.all isNamePart) = rest := by
    cases rest with
    | nil => exact ⟨rfl, rfl⟩
    | cons c rest =>
      have no : c.all isNamePart = false := ends c rfl
      simp [no]
  rw [readName, List.takeWhile_append_of_pos h, List.dropWhile_append_of_pos h, stops.1, stops.2,
    List.append_nil]

theorem readString_quote (value rest : Text) :
    readString (quote value ++ rest) = (value, rest) := by
  have body : (quote value ++ rest).drop 1 = quoteBody value ++ doubleQuote :: rest := by
    simp [quote, doubleQuote]
  have value_eq : (cook (quoteBody value)).toOption = some value := by
    rw [cook_quoteBody]
    rfl
  rw [readString, body, readBody_quoteBody]
  simp only [value_eq, Option.getD_some]

theorem head?_quote_append (value rest : Text) :
    (quote value ++ rest).head? = some doubleQuote := rfl

theorem isNamePart_of_isNameStart {c : CodePoint} (h : c.all isNameStart) : c.all isNamePart := by
  cases c with
  | scalar c => simp_all [CodePoint.all, isNamePart]
  | surrogate => cases h

/-- An identifier of ASCII characters is a name, with a line feed after it or not. -/
theorem exists_of_isPlainName {text : Text} (h : isPlainName text) :
    ∃ first rest, first.all isNameStart ∧ (∀ c ∈ first :: rest, c.all isNamePart) ∧
      (text = first :: rest ∨ text = first :: rest ++ [.scalar '\n']) := by
  cases text with
  | nil => cases h
  | cons first text =>
    simp only [isPlainName, Bool.and_eq_true, Bool.or_eq_true, decide_eq_true_eq] at h
    obtain ⟨start, tail⟩ := h
    refine ⟨first, text.takeWhile (·.all isNamePart), start, ?_, ?_⟩
    · rw [List.forall_mem_cons]
      exact ⟨isNamePart_of_isNameStart start, fun _ mem => List.mem_takeWhile_imp mem⟩
    have whole := List.takeWhile_append_dropWhile (p := (·.all isNamePart)) (l := text)
    rcases tail with tail | tail
    · rw [tail, List.append_nil] at whole
      exact .inl (by rw [whole])
    · rw [tail] at whole
      exact .inr (by rw [List.cons_append, whole])

theorem IsName.exists_cons {name : Text} (h : IsName name) :
    ∃ first rest, name = first :: rest ∧ first.all isNameStart ∧ ∀ c ∈ name, c.all isNamePart := by
  obtain ⟨first, rest, start, parts, rfl | rfl⟩ := exists_of_isPlainName h.plain
  · exact ⟨first, rest, rfl, start, parts⟩
  · exact absurd (List.getLast?_concat ..) h.closed

theorem IsName.read {name rest : Text} (h : IsName name) (ends : EndsName rest) :
    readName (name ++ rest) = (name, rest) := by
  obtain ⟨_, _, _, _, parts⟩ := h.exists_cons
  exact readName_append parts ends

/-- A name begins with none of the signs that the reader looks for. -/
theorem IsName.head?_ne {name : Text} (h : IsName name) {c : CodePoint}
    (hc : c.all isNameStart = false) (rest : Text) : (name ++ rest).head? ≠ some c := by
  obtain ⟨first, more, rfl, start, -⟩ := h.exists_cons
  rintro ⟨⟩
  rw [hc] at start
  cases start

theorem endsName_cons {c : CodePoint} (h : c.all isNamePart = false) (rest : Text) :
    EndsName (c :: rest) := by
  rintro d ⟨⟩
  exact h

theorem endsValue_cons {c : CodePoint} (h : c.all isNamePart = false) (hp : c ≠ .scalar '.')
    (hb : c ≠ .scalar '(') (rest : Text) : EndsValue (c :: rest) :=
  ⟨endsName_cons h rest, fun same => hp (Option.some.inj same),
    fun same => hb (Option.some.inj same)⟩

section

variable {read : Text → Node × Text} {fuel : Nat} {operand : Node}

theorem readSuffixes_member (rest : Text) :
    readSuffixes read (fuel + 1) operand (.scalar '.' :: rest) =
      readSuffixes read fuel (.of (.member operand (.identifier (readName rest).1) false))
        (readName rest).2 := rfl

theorem readSuffixes_call {text : Text} (h : text.head? ≠ some (.scalar ')')) :
    readSuffixes read (fuel + 1) operand (.scalar '(' :: text) =
      readSuffixes read fuel (.of (.call operand (readItems read fuel text).1))
        ((readItems read fuel text).2.drop 1) := by
  rw [readSuffixes, if_neg (by simp), if_pos (by simp), if_neg (by simpa using h)]
  rfl

theorem readSuffixes_end {rest : Text} (ends : EndsValue rest) :
    readSuffixes read (fuel + 1) operand rest = (operand, rest) := by
  rw [readSuffixes, if_neg ends.2.1, if_neg ends.2.2]

end

/-! ## Items -/

/-- The reader gives an item back from its text if no more than the bound is to be read. -/
def Recovers {α : Type} (read : Text → α × Text) (ends : Text → Prop) (bound : Nat) (item : α)
    (text : Text) : Prop :=
  ∀ rest, (text ++ rest).length < bound → ends rest → read (text ++ rest) = (item, rest)

/-- Items with a comma and one more code point between them are read back one after the other; the
list ends where no comma follows. -/
theorem readItems_join {α : Type} {read : Text → α × Text} {ends : Text → Prop} {bound : Nat}
    {separator after : Text} {next : CodePoint} (hs : separator = [.scalar ',', next])
    (between : ∀ rest, ends (.scalar ',' :: rest)) (stop : ends after)
    (last : after.head? ≠ some (.scalar ',')) {items : List α} {texts : List Text}
    (h : List.Forall₂ (Recovers read ends bound) items texts) (ne : texts ≠ []) {fuel : Nat}
    (enough : (Text.join separator texts ++ after).length < fuel)
    (within : (Text.join separator texts ++ after).length < bound) :
    readItems read fuel (Text.join separator texts ++ after) = (items, after) := by
  induction h generalizing fuel with
  | nil => exact absurd rfl ne
  | @cons item text items texts first others ih =>
    obtain ⟨fuel, rfl⟩ := Nat.exists_eq_add_one.2 (Nat.zero_lt_of_lt enough)
    cases texts with
    | nil =>
      cases others
      rw [Text.join] at within ⊢
      rw [readItems, first after within stop]
      exact if_neg last
    | cons text' texts =>
      have split : Text.join separator (text :: text' :: texts) ++ after =
          text ++ .scalar ',' :: next :: (Text.join separator (text' :: texts) ++ after) := by
        rw [Text.join, hs]
        · simp
        · nofun
      rw [split] at enough within ⊢
      simp only [List.length_append, List.length_cons] at enough within ih
      rw [readItems, first _ (by simpa using within) (between _)]
      simp only [List.head?_cons, if_true, List.drop_succ_cons, List.drop_zero]
      rw [ih (by nofun) (by omega) (by omega)]

/-! ## Expressions -/

/-- The text begins with something other than the end of a list of arguments. -/
def Begins (text : Text) : Prop := ∀ rest, (text ++ rest).head? ≠ some (.scalar ')')

/-- An operand is read along the suffixes that follow it; the reader ends at the end of a value or
of an entry. Fuel that exceeds the length of the text is enough, and some of it is left when only
suffixes remain. -/
def Reads (layout : Layout) (node : Node) : Place → Prop
  | .operand => ∀ level, ∃ text, layout.expression level node = .ok text ∧ Begins text ∧
      ∀ fuel rest, (text ++ rest).length ≤ fuel → EndsName rest → ∃ left, rest.length < left ∧
        readExpression layout (fuel + 1) level (text ++ rest) =
          readSuffixes (readExpression layout fuel level) left node.essence rest
  | .value => ∀ level, ∃ text, layout.expression level node = .ok text ∧ Begins text ∧
      ∀ fuel, Recovers (readExpression layout fuel level) EndsValue fuel node.essence text
  | .entry => ∀ level, ∃ text,
      (∀ others, layout.entries level (node :: others) =
        (text :: ·) <$> layout.entries level others) ∧
      ∀ fuel, Recovers (readEntry layout level (readExpression layout fuel level)) EndsValue fuel
        node.essence text

variable {layout : Layout}

theorem IsIdentifier.expression_eq {name : Text} {node : Node} (h : IsIdentifier name node)
    (level : Int) : layout.expression level node = .ok name := by
  obtain ⟨_⟩ := h
  rfl

theorem IsString.expression_eq {value : Text} {node : Node} (h : IsString value node)
    (level : Int) : layout.expression level node = .ok (quote value) := by
  obtain ⟨⟩ := h
  rfl

theorem IsIdentifier.isName {name : Text} {node : Node} (h : IsIdentifier name node) :
    IsName name := by
  obtain ⟨h⟩ := h
  exact h

/-- A name is an operand, with no suffix behind it. -/
theorem reads_identifier {name : Text} {node : Node} (h : IsIdentifier name node) :
    Reads layout node .operand := by
  intro level
  have isName : IsName name := h.isName
  refine ⟨name, h.expression_eq level, isName.head?_ne rfl, fun fuel rest enough ends => ?_⟩
  obtain ⟨first, more, rfl, start, -⟩ := isName.exists_cons
  refine ⟨fuel, ?_, ?_⟩
  · simp only [List.length_append, List.length_cons] at enough
    omega
  · -- A name that is a literal would be read as that literal.
    have isTrue : first :: more ≠ ("true" : Text) := fun same => isName.free (by simp [same])
    have isFalse : first :: more ≠ ("false" : Text) := fun same => isName.free (by simp [same])
    rw [readExpression, if_neg (isName.head?_ne rfl rest), if_neg (isName.head?_ne rfl rest),
      isName.read ends, h.essence_eq]
    dsimp only
    rw [if_neg isTrue, if_neg isFalse]

theorem reads_string {value : Text} {node : Node} (h : IsString value node) :
    Reads layout node .operand := by
  intro level
  refine ⟨quote value, h.expression_eq level, nofun, fun fuel rest enough _ => ⟨fuel, ?_, ?_⟩⟩
  · simp only [quote, List.length_append, List.length_cons] at enough
    omega
  · rw [readExpression, if_pos (head?_quote_append value rest), readString_quote, h.essence_eq]

/-- The access to a member is one more suffix of its target, which is read first. -/
theorem reads_member {location : Option Location} {target name : Node} {property : Text}
    (ih : Reads layout target .operand) (h : IsIdentifier property name) :
    Reads layout (.mk location [] (.member target name false)) .operand := by
  intro level
  obtain ⟨text, printed, begins, reads⟩ := ih level
  refine ⟨text ++ "." ++ property, ?_, ?_, fun fuel rest enough ends => ?_⟩
  · rw [Layout.expression, printed, h.expression_eq]
    rfl
  · intro rest
    rw [List.append_assoc, List.append_assoc]
    exact begins _
  · have split : text ++ "." ++ property ++ rest = text ++ .scalar '.' :: (property ++ rest) := by
      simp only [List.append_assoc]
      rfl
    rw [split] at enough ⊢
    obtain ⟨left, more, suffixes⟩ := reads fuel _ enough (endsName_cons rfl _)
    obtain ⟨left, rfl⟩ := Nat.exists_eq_add_one.2 (Nat.zero_lt_of_lt more)
    refine ⟨left, ?_, ?_⟩
    · simp only [List.length_append, List.length_cons] at more
      omega
    · rw [suffixes, readSuffixes_member, h.isName.read ends, essence_member, h.essence_eq]

theorem comma_space : (", " : Text) = [.scalar ',', .scalar ' '] := rfl

theorem comma_line : (",\n" : Text) = [.scalar ',', .scalar '\n'] := rfl

/-- The texts of the arguments of a call. -/
theorem exists_expressions (level : Int) {arguments : List Node}
    (h : ∀ argument ∈ arguments, Reads layout argument .value) :
    ∃ texts, layout.expressions level arguments.length arguments = .ok texts ∧
      (∀ text ∈ texts, Begins text) ∧
      ∀ fuel, List.Forall₂ (Recovers (readExpression layout fuel level) EndsValue fuel)
        (arguments.map Node.essence) texts := by
  induction arguments with
  | nil => exact ⟨[], rfl, nofun, fun _ => .nil⟩
  | cons argument arguments ih =>
    obtain ⟨first, others⟩ := List.forall_mem_cons.1 h
    obtain ⟨text, printed, begins, reads⟩ := first level
    obtain ⟨texts, rest, allBegin, all⟩ := ih others
    refine ⟨text :: texts, ?_, List.forall_mem_cons.2 ⟨begins, allBegin⟩, fun fuel => ?_⟩
    · rw [List.length_cons, Layout.expressions, printed, rest]
      rfl
    · exact .cons (reads fuel) (all fuel)

theorem Begins.join {separator text : Text} {texts : List Text} (h : Begins text) :
    Begins (Text.join separator (text :: texts)) := by
  cases texts with
  | nil => exact h
  | cons text' texts =>
    intro rest
    rw [Text.join, List.append_assoc, List.append_assoc]
    · exact h _
    · nofun

/-- A call is one more suffix of its callee. The fuel that the suffixes have left exceeds what there
is to read, so that it is enough for each of the arguments. -/
theorem reads_call {location : Option Location} {callee : Node} {arguments : List Node}
    (ihc : Reads layout callee .operand)
    (iha : ∀ argument ∈ arguments, Reads layout argument .value) :
    Reads layout (.mk location [] (.call callee arguments)) .operand := by
  intro level
  obtain ⟨text, printed, begins, reads⟩ := ihc level
  obtain ⟨texts, printedAll, allBegin, all⟩ := exists_expressions level iha
  refine ⟨text ++ "(" ++ Text.join ", " texts ++ ")", ?_, ?_, fun fuel rest enough ends => ?_⟩
  · rw [Layout.expression, printedAll, printed]
    rfl
  · intro rest
    rw [List.append_assoc, List.append_assoc, List.append_assoc]
    exact begins _
  · have split : text ++ "(" ++ Text.join ", " texts ++ ")" ++ rest =
        text ++ .scalar '(' :: (Text.join ", " texts ++ .scalar ')' :: rest) := by
      simp only [List.append_assoc]
      rfl
    rw [split] at enough ⊢
    obtain ⟨left, more, suffixes⟩ := reads fuel _ enough (endsName_cons rfl _)
    obtain ⟨left, rfl⟩ := Nat.exists_eq_add_one.2 (Nat.zero_lt_of_lt more)
    simp only [List.length_append, List.length_cons] at enough more
    refine ⟨left, by omega, ?_⟩
    rw [suffixes, essence_call]
    cases texts with
    | nil =>
      obtain rfl : arguments = [] := by simpa using (all 0).length_eq
      rfl
    | cons first later =>
      -- Each argument is read with the fuel of the whole, the list of them with what is left.
      have begins : Begins first := allBegin first List.mem_cons_self
      have stop : EndsValue (.scalar ')' :: rest) :=
        endsValue_cons rfl (by decide) (by decide) rest
      have items : readItems (readExpression layout fuel level) left
          (Text.join ", " (first :: later) ++ .scalar ')' :: rest) =
            (arguments.map Node.essence, .scalar ')' :: rest) := by
        refine readItems_join comma_space (endsValue_cons rfl (by decide) (by decide)) stop
          (by simp) (all fuel) (by simp) ?_ ?_
        · simp only [List.length_append, List.length_cons]
          omega
        · simp only [List.length_append, List.length_cons]
          omega
      rw [readSuffixes_call (begins.join _), items]
      rfl

theorem reads_operand {node : Node} (h : Reads layout node .operand) :
    Reads layout node .value := by
  intro level
  obtain ⟨text, printed, begins, reads⟩ := h level
  refine ⟨text, printed, begins, fun fuel rest enough ends => ?_⟩
  obtain ⟨fuel, rfl⟩ := Nat.exists_eq_add_one.2 (Nat.zero_lt_of_lt enough)
  obtain ⟨left, more, suffixes⟩ := reads fuel rest (Nat.le_of_lt_succ enough) ends.1
  obtain ⟨left, rfl⟩ := Nat.exists_eq_add_one.2 (Nat.zero_lt_of_lt more)
  rw [suffixes, readSuffixes_end ends]

/-- The words for truth values are names to the reader, which knows them from other names
afterwards. -/
theorem reads_boolean {location : Option Location} {value : Bool} :
    Reads layout (.mk location [] (.boolean value)) .value := by
  intro level
  have name : ∀ c ∈ (if value then "true" else "false" : Text), c.all isNamePart := by
    cases value <;> decide
  refine ⟨if value then "true" else "false", rfl, ?_, fun fuel rest enough ends => ?_⟩
  · cases value <;> nofun
  · obtain ⟨fuel, rfl⟩ := Nat.exists_eq_add_one.2 (Nat.zero_lt_of_lt enough)
    have quote : ((if value then "true" else "false" : Text) ++ rest).head? ≠ some doubleQuote := by
      cases value <;> nofun
    have brace : ((if value then "true" else "false" : Text) ++ rest).head? ≠
        some (.scalar '\x7b') := by
      cases value <;> nofun
    rw [readExpression, if_neg quote, if_neg brace, readName_append name ends.1,
      essence_boolean]
    cases value <;> rfl

/-- The texts of the entries of an object. -/
theorem exists_entries (level : Int) {entries : List Node}
    (h : ∀ entry ∈ entries, Reads layout entry .entry) :
    ∃ texts, layout.entries level entries = .ok texts ∧
      ∀ fuel, List.Forall₂
        (Recovers (readEntry layout level (readExpression layout fuel level)) EndsValue fuel)
        (entries.map Node.essence) texts := by
  induction entries with
  | nil => exact ⟨[], rfl, fun _ => .nil⟩
  | cons entry entries ih =>
    obtain ⟨first, others⟩ := List.forall_mem_cons.1 h
    obtain ⟨text, printed, reads⟩ := first level
    obtain ⟨texts, rest, all⟩ := ih others
    refine ⟨text :: texts, ?_, fun fuel => .cons (reads fuel) (all fuel)⟩
    rw [printed, rest]
    rfl

theorem object_eq_of_ne_nil {level : Int} {texts : List Text} (ne : texts ≠ []) (rest : Text) :
    layout.object level texts ++ rest = .scalar '\x7b' :: .scalar '\n' ::
      (Text.join ",\n" texts ++
        .scalar '\n' :: (layout.margin level ++ .scalar '\x7d' :: rest)) := by
  rw [Layout.object, if_neg (by simpa using ne)]
  simp only [List.append_assoc]
  rfl

/-- An object without entries is a pair of braces; otherwise its entries stand in lines of their
own, one level further in, and are read back like items. -/
theorem reads_object {location : Option Location} {entries : List Node}
    (ih : ∀ entry ∈ entries, Reads layout entry .entry) :
    Reads layout (.mk location [] (.object entries)) .value := by
  intro level
  obtain ⟨texts, printed, all⟩ := exists_entries (level + 1) ih
  have begins (rest : Text) :
      (layout.object level texts ++ rest).head? = some (.scalar '\x7b') := by
    rw [Layout.object]
    split <;> rfl
  refine ⟨layout.object level texts, ?_, fun rest => ?_, fun fuel rest enough ends => ?_⟩
  · rw [Layout.expression, printed]
    rfl
  · rw [begins]
    nofun
  · obtain ⟨fuel, rfl⟩ := Nat.exists_eq_add_one.2 (Nat.zero_lt_of_lt enough)
    have quote : (layout.object level texts ++ rest).head? ≠ some doubleQuote := by
      rw [begins]
      nofun
    rw [readExpression, if_neg quote, if_pos (begins rest), essence_object]
    cases texts with
    | nil =>
      obtain rfl : entries = [] := by simpa using (all 0).length_eq
      rfl
    | cons first later =>
      rw [object_eq_of_ne_nil (by simp)] at enough ⊢
      simp only [List.length_append, List.length_cons] at enough
      have items : readItems (readEntry layout (level + 1) (readExpression layout fuel (level + 1)))
          fuel (Text.join ",\n" (first :: later) ++
            .scalar '\n' :: (layout.margin level ++ .scalar '\x7d' :: rest)) =
            (entries.map Node.essence,
              .scalar '\n' :: (layout.margin level ++ .scalar '\x7d' :: rest)) := by
        refine readItems_join comma_line (endsValue_cons rfl (by decide) (by decide))
          (endsValue_cons rfl (by decide) (by decide) _) (by simp) (all fuel) (by simp) ?_ ?_
        · simp only [List.length_append, List.length_cons]
          omega
        · simp only [List.length_append, List.length_cons]
          omega
      rw [if_neg (by simp)]
      simp only [List.drop_succ_cons, List.drop_zero, items, List.drop_left]

/-- A plain name is the key up to the colon. -/
theorem readKey_of_isPlainName {name : Text} (h : isPlainName name) (rest : Text) :
    readKey (name ++ .scalar ':' :: rest) = (name, .scalar ':' :: rest) := by
  obtain ⟨first, more, start, parts, eq⟩ := exists_of_isPlainName h
  have quote : (name ++ .scalar ':' :: rest).head? ≠ some doubleQuote := by
    rcases eq with rfl | rfl
    all_goals
      rintro ⟨⟩
      cases start
  rw [readKey, if_neg quote]
  rcases eq with rfl | rfl
  · rw [readName_append parts (endsName_cons rfl rest)]
    rfl
  · rw [List.append_assoc, List.singleton_append, readName_append parts (endsName_cons rfl _)]
    rfl

theorem readKey_quote (value rest : Text) : readKey (quote value ++ rest) = (value, rest) := by
  rw [readKey, if_pos (head?_quote_append value rest), readString_quote]

/-- The text of an entry, and that of its key. -/
theorem exists_entry (location : Option Location) {level : Int} {name text : Text}
    {key value : Node} (hk : IsKey name key) (hv : layout.expression level value = .ok text) :
    ∃ written, (∀ others,
      layout.entries level (.mk location [] (.property key value false) :: others) =
        ((layout.margin level ++ (written ++ ": " ++ text)) :: ·) <$>
          layout.entries level others) ∧
      ∀ rest, readKey (written ++ .scalar ':' :: rest) = (name, .scalar ':' :: rest) := by
  rcases hk with ⟨⟨isName⟩⟩ | ⟨⟨⟩⟩
  · refine ⟨name, fun others => ?_, readKey_of_isPlainName isName.plain⟩
    simp only [Layout.entries, hv]
    rfl
  · by_cases plain : isPlainName name
    · refine ⟨name, fun others => ?_, readKey_of_isPlainName plain⟩
      simp only [Layout.entries, Node.stringValue?, hv, if_pos plain]
      rfl
    · refine ⟨quote name, fun others => ?_, fun rest => readKey_quote name _⟩
      simp only [Layout.entries, Node.stringValue?, hv, if_neg plain]
      rfl

/-- An entry is read back by its key, a plain name or a literal, and its value. -/
theorem reads_entry {location : Option Location} {name : Text} {key value : Node}
    (hk : IsKey name key) (ih : Reads layout value .value) :
    Reads layout (.mk location [] (.property key value false)) .entry := by
  intro level
  obtain ⟨text, printed, -, reads⟩ := ih level
  obtain ⟨written, line, readsKey⟩ := exists_entry location hk printed
  refine ⟨_, line, fun fuel rest enough ends => ?_⟩
  have split : layout.margin level ++ (written ++ ": " ++ text) ++ rest =
      layout.margin level ++ (written ++ .scalar ':' :: .scalar ' ' :: (text ++ rest)) := by
    simp only [List.append_assoc]
    rfl
  rw [split] at enough ⊢
  simp only [List.length_append, List.length_cons] at enough
  have value_eq : readExpression layout fuel level (text ++ rest) = (value.essence, rest) := by
    refine reads fuel rest ?_ ends
    rw [List.length_append]
    omega
  rw [readEntry, List.drop_left, readsKey, essence_entry hk]
  exact congrArg (fun read : Node × Text =>
    (Node.of (.property (.string name) read.1 false), read.2)) value_eq

/-- **An expression is read back** from its text, whatever follows it, in each of the places where
it may stand. -/
theorem Stands.reads (layout : Layout) {place : Place} {node : Node} (h : Stands place node) :
    Reads layout node place := by
  induction h with
  | identifier h => exact reads_identifier h
  | string h => exact reads_string h
  | member _ hn ih => exact reads_member ih hn
  | call _ _ ihc iha => exact reads_call ihc iha
  | operand _ ih => exact reads_operand ih
  | boolean => exact reads_boolean
  | object _ ih => exact reads_object ih
  | entry hk _ ih => exact reads_entry hk ih

end Printer

end ElementWrapper
