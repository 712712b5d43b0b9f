import ElementWrapper.Proofs.Printer.Reader
import ElementWrapper.Proofs.Script.Reading
import ElementWrapper.Proofs.Wrapper.Settled

/-!
The keys of the two objects that a wrapper exports, read back as a script reads the name of a
property: blanks around a name are no part of it, a bare name stands for itself and a literal for
its cooked value.

`propertyName?_keyText` says what is read of the key of one entry. The rest finds the entries in the
text of the whole module, statement by statement and entry by entry. A line feed may follow a bare
name in the text of a key: it is then read as a blank, and the key no longer stands for the name
that it was made for (`readAs_eq_self_iff`).
-/

namespace ElementWrapper

namespace Printer

open Literal Script

/-! ## Names of properties -/

/-- A name that needs no quotes. -/
def IsBareName (name : Text) : Prop :=
  (∃ first ∈ name.head?, first.all isNameStart) ∧ ∀ c ∈ name, c.all isNamePart

instance (name : Text) : Decidable (IsBareName name) :=
  inferInstanceAs (Decidable ((∃ first ∈ name.head?, _) ∧ ∀ c ∈ name, _))

/-- The name of a property by the text that stands for it. -/
def propertyName? (text : Text) : Option Text :=
  let token := Text.trimEnd isBlank (text.dropWhile isBlank)
  if token.head? = some doubleQuote then
    match readBody (token.drop 1) with
    | some (body, []) => (cook body).toOption
    | _ => none
  else if IsBareName token then some token
  else none

/-- The text of the key of an entry for a name. -/
def keyText (name : Text) : Text := if isPlainName name then name else quote name

/-- What is read where a name was to be written. -/
def readAs (name : Text) : Text :=
  if isPlainName name then name.takeWhile (·.all isNamePart) else name

/-- A bare name with a line feed after it. -/
def LosesLineFeed (name : Text) : Prop :=
  ∃ bare, IsBareName bare ∧ name = bare ++ [.scalar '\n']

/-- What may follow a bare name in the text of a key: nothing, or a line feed. -/
def MayFollow (after : Text) : Prop := after = [] ∨ after = [.scalar '\n']

theorem exists_isBareName {name : Text} (h : isPlainName name) :
    ∃ bare after, IsBareName bare ∧ MayFollow after ∧ name = bare ++ after := by
  obtain ⟨first, rest, start, parts, eq⟩ := exists_of_isPlainName h
  have isBare : IsBareName (first :: rest) := ⟨⟨first, rfl, start⟩, parts⟩
  rcases eq with rfl | rfl
  · exact ⟨_, [], isBare, .inl rfl, (List.append_nil _).symm⟩
  · exact ⟨_, _, isBare, .inr rfl, rfl⟩

theorem MayFollow.takeWhile_eq {after : Text} (h : MayFollow after) :
    after.takeWhile (·.all isNamePart) = [] := by
  rcases h with rfl | rfl <;> rfl

theorem MayFollow.isBlank {after : Text} (h : MayFollow after) :
    ∀ c ∈ after, isBlank c := by
  rcases h with rfl | rfl
  · nofun
  · exact List.forall_mem_singleton.2 rfl

namespace IsBareName

variable {bare after : Text}

theorem exists_cons (h : IsBareName bare) :
    ∃ first rest, bare = first :: rest ∧ first.all isNameStart ∧ ∀ c ∈ rest, c.all isNamePart := by
  obtain ⟨⟨first, head, start⟩, parts⟩ := h
  obtain ⟨rest, rfl⟩ := List.head?_eq_some_iff.1 head
  exact ⟨first, rest, rfl, start, (List.forall_mem_cons.1 parts).2⟩

theorem isPlainName (h : IsBareName bare) (ends : MayFollow after) :
    isPlainName (bare ++ after) := by
  obtain ⟨first, rest, rfl, start, parts⟩ := h.exists_cons
  rw [List.cons_append, Literal.isPlainName, start, List.dropWhile_append_of_pos parts]
  rcases ends with rfl | rfl <;> rfl

theorem readAs_eq (h : IsBareName bare) (ends : MayFollow after) :
    readAs (bare ++ after) = bare := by
  rw [readAs, if_pos (h.isPlainName ends), List.takeWhile_append_of_pos h.2, ends.takeWhile_eq,
    List.append_nil]

end IsBareName

/-- A name is read as itself unless it loses the line feed at its end. -/
theorem readAs_eq_self_iff {name : Text} : readAs name = name ↔ ¬ LosesLineFeed name := by
  constructor
  · rintro same ⟨bare, isBare, rfl⟩
    rw [isBare.readAs_eq (.inr rfl)] at same
    exact List.ne_cons_self (List.append_right_eq_self.1 same.symm).symm
  · intro keeps
    by_cases plain : isPlainName name
    · obtain ⟨bare, after, isBare, ends, rfl⟩ := exists_isBareName plain
      rcases ends with rfl | rfl
      · rw [isBare.readAs_eq (.inl rfl), List.append_nil]
      · exact absurd ⟨bare, isBare, rfl⟩ keeps
    · exact if_neg plain

/-! ## Reading a key -/

/-- A token between blanks. -/
theorem trim_token {token after : Text} (first : ∀ c ∈ token.head?, isBlank c = false)
    (last : ∀ c ∈ token.getLast?, isBlank c = false) (ne : token ≠ [])
    (blank : ∀ c ∈ after, isBlank c) :
    Text.trimEnd isBlank ((token ++ after).dropWhile isBlank) = token := by
  have starts : (token ++ after).dropWhile isBlank = token ++ after := by
    obtain ⟨c, rest, rfl⟩ := List.exists_cons_of_ne_nil ne
    exact List.dropWhile_cons_of_neg (by simp [first c rfl])
  have stops : token.reverse.dropWhile isBlank = token.reverse := by
    cases eq : token.reverse with
    | nil => rfl
    | cons c rest =>
      have mem : c ∈ token.getLast? := by simp [← List.head?_reverse, eq]
      exact List.dropWhile_cons_of_neg (by simp [last c mem])
  rw [starts, Text.trimEnd, List.reverse_append, List.dropWhile_append_of_pos, stops,
    List.reverse_reverse]
  exact fun c mem => blank c (List.mem_reverse.1 mem)

/-- A name that needs no quotes is read up to what follows it. -/
theorem propertyName?_bare {bare after : Text} (h : IsBareName bare) (ends : MayFollow after) :
    propertyName? (bare ++ after) = some bare := by
  have visible (c : CodePoint) (mem : c ∈ bare) : isBlank c = false :=
    isBlank_of_isNamePart (h.2 c mem)
  have trimmed : Text.trimEnd isBlank ((bare ++ after).dropWhile isBlank) = bare := by
    refine trim_token (fun c mem => visible c (List.mem_of_head? mem))
      (fun c mem => visible c (List.mem_of_getLast? mem)) ?_ ends.isBlank
    rintro rfl
    obtain ⟨⟨_, none, _⟩, _⟩ := h
    cases none
  have unquoted : bare.head? ≠ some doubleQuote := by
    obtain ⟨first, rest, rfl, start, -⟩ := h.exists_cons
    rintro ⟨⟩
    cases start
  simp only [propertyName?, trimmed, if_neg unquoted, if_pos h]

/-- A quoted name is read as the name that was quoted. -/
theorem propertyName?_quote (name : Text) : propertyName? (quote name) = some name := by
  have trimmed : Text.trimEnd isBlank ((quote name).dropWhile isBlank) =
      quote name := by
    have closed : (quote name).getLast? = some doubleQuote := List.getLast?_concat ..
    have trim := @trim_token (quote name) [] ?_ ?_ (by simp [quote]) ?_
    · rwa [List.append_nil] at trim
    · rintro _ ⟨⟩
      rfl
    · rw [closed]
      rintro _ ⟨⟩
      rfl
    · simp
  have body : (quote name).drop 1 = quoteBody name ++ [doubleQuote] := by
    simp [quote, doubleQuote]
  simp only [propertyName?, trimmed]
  rw [if_pos (show (quote name).head? = some doubleQuote from rfl), body, readBody_quoteBody]
  exact congrArg Except.toOption (cook_quoteBody name)

theorem propertyName?_keyText (name : Text) :
    propertyName? (keyText name) = some (readAs name) := by
  by_cases plain : isPlainName name
  · rw [keyText, if_pos plain]
    obtain ⟨bare, after, isBare, ends, rfl⟩ := exists_isBareName plain
    rw [propertyName?_bare isBare ends, isBare.readAs_eq ends]
  · rw [keyText, if_neg plain, readAs, if_neg plain, propertyName?_quote]

end Printer

namespace Wrapper

open Printer

variable {layout : Layout}

/-! ## Finding the entries -/

/-- The lines of an entry for a name. -/
def IsLineOf (layout : Layout) (level : Int) (name line : Text) : Prop :=
  ∃ comments value, line = layout.commented level comments (keyText name ++ ": " ++ value)

/-- An entry is printed as the text of its key, a colon and its value. -/
theorem entries_entry (level : Int) (name : Text) (value : Node) (comments : List Comment)
    (others : List Node) : layout.entries level (entry (key name) value comments :: others) = (do
      let code ← layout.expression level value
      return layout.commented level comments (keyText name ++ ": " ++ code) ::
        (← layout.entries level others)) := by
  by_cases plain : Literal.isPlainName name
  · simp only [entry, key, keyText, if_pos plain, Node.identifier, Node.of, Layout.entries]
    rfl
  · simp only [entry, key, keyText, if_neg plain, Node.string, Node.of, Layout.entries,
      Node.stringValue?]
    rfl

/-- Each entry has a line, in the order of the entries. -/
theorem isLineOf_of_entries {level : Int} {names lines : List Text} {entries : List Node}
    (h : List.Forall₂ IsEntryOf names entries)
    (printed : layout.entries level entries = .ok lines) :
    List.Forall₂ (IsLineOf layout level) names lines := by
  induction h generalizing lines with
  | nil =>
    obtain rfl := Except.ok.inj printed
    exact .nil
  | cons first _ ih =>
    obtain ⟨value, comments, rfl⟩ := first
    simp only [entries_entry, Except.bind_eq_ok, Except.pure_eq_ok] at printed
    obtain ⟨code, -, rest, others, rfl⟩ := printed
    exact .cons ⟨comments, code, rfl⟩ (ih others)

/-- The text of an object with some lines, merged over an object of the parent if there is one. -/
def inheritedText (layout : Layout) (m : Metadata) (parent : Text) (lines : List Text) : Text :=
  if m.parentSource.any (!·.isEmpty) then
    "Object.assign(" ++ Layout.openBrace ++ Layout.closeBrace ++ ", " ++ parent ++ ", " ++
      layout.object 0 lines ++ ")"
  else layout.object 0 lines

/-- The statement that exports a value under a name. -/
def exportLine (name value : Text) : Text := "export var " ++ name ++ " = " ++ value ++ ";"

theorem exportLine_eq (name : Text) : exportLine name = fun value =>
    "export " ++ ("var" ++ " " ++ Text.join ", " [name ++ " = " ++ value] ++ ";") := by
  funext value
  simp only [exportLine, Text.join, List.append_assoc]
  rfl

theorem statementBody_exported (name : Text) (value : Node) :
    layout.statementBody 0 (exported name value) =
      exportLine name <$> layout.expression 0 value := by
  simp only [exportLine_eq, exported, declare, Node.of, Layout.statementBody, List.mapM_cons,
    List.mapM_nil, Layout.declarator, Node.form]
  cases layout.expression 0 value <;> rfl

theorem inheritedText_eq {m : Metadata} (merges : m.parentSource.any (!·.isEmpty))
    (parent : Text) : inheritedText layout m parent = fun lines =>
      "Object" ++ "." ++ "assign" ++ "(" ++
        Text.join ", " [layout.object 0 [], parent, layout.object 0 lines] ++ ")" := by
  funext lines
  rw [inheritedText, if_pos merges]
  simp only [Text.join, List.append_assoc]
  rfl

/-- An object that inherits from a parent is printed with the lines of its own entries in it. -/
theorem expression_inherited (m : Metadata) (parent : Text) (entries : List Node) :
    layout.expression 0 (inherited m parent (object entries)) =
      inheritedText layout m parent <$> layout.entries 1 entries := by
  have own (entries : List Node) : layout.expression 0 (object entries) =
      layout.object 0 <$> layout.entries 1 entries := rfl
  rw [inherited]
  split
  · next merges =>
    have callee : layout.expression 0 (.memberNamed "Object" "assign") =
        .ok ("Object" ++ "." ++ "assign") := rfl
    simp only [inheritedText_eq merges, merged, call, Node.of, Layout.expression, callee,
      Layout.expressions, List.length_cons, own]
    cases layout.entries 1 entries <;> rfl
  · next alone =>
    have same : inheritedText layout m parent = layout.object 0 := funext fun _ => if_neg alone
    rw [own, same]

theorem exists_exportLine {m : Metadata} {name parent body : Text} {value : Node}
    (h : Lists m parent value) (printed : layout.statementBody 0 (exported name value) = .ok body) :
    ∃ lines, List.Forall₂ (IsLineOf layout 1) (entryNames m) lines ∧
      body = exportLine name (inheritedText layout m parent lines) := by
  obtain ⟨entries, rfl, named⟩ := h
  rw [statementBody_exported, expression_inherited, Except.map_eq_ok] at printed
  obtain ⟨code, hc, rfl⟩ := printed
  obtain ⟨lines, hl, rfl⟩ := Except.map_eq_ok.1 hc
  exact ⟨lines, isLineOf_of_entries named hl, rfl⟩

/-- Statements are printed one by one. -/
theorem statements_append {level : Int} {before after : List Node} {lines : List Text}
    (h : layout.statements level (before ++ after) = .ok lines) :
    ∃ first rest, layout.statements level before = .ok first ∧
      layout.statements level after = .ok rest ∧ lines = first ++ rest := by
  induction before generalizing lines with
  | nil => exact ⟨[], lines, rfl, h, rfl⟩
  | cons statement before ih =>
    simp only [List.cons_append, Layout.statements, Except.bind_eq_ok, Except.pure_eq_ok] at h ⊢
    obtain ⟨body, hb, others, ho, rfl⟩ := h
    obtain ⟨first, rest, hf, hr, rfl⟩ := ih ho
    exact ⟨_, rest, ⟨body, hb, first, hf, rfl⟩, hr, rfl⟩

/-- Two texts that follow each other stand side by side when all are joined. -/
theorem infix_join (separator : Text) (before after : List Text) (first second : Text) :
    first ++ separator ++ second <:+: Text.join separator (before ++ first :: second :: after) := by
  induction before with
  | nil =>
    cases after with
    | nil => exact List.infix_rfl
    | cons next after =>
      refine ⟨[], separator ++ Text.join separator (next :: after), ?_⟩
      simp [Text.join]
  | cons text before ih =>
    have later : before ++ first :: second :: after ≠ [] := by simp
    rw [List.cons_append, Text.join]
    · exact ih.trans (List.suffix_append _ _).isInfix
    · exact later

/-- Two statements without comments stand one after the other in the text of a module. -/
theorem infix_of_program {program first second : Node} {before after : List Node} {text : Text}
    (split : program.statements = before ++ first :: second :: after)
    (bare : first.comments = [] ∧ second.comments = [])
    (printed : layout.program program = .ok text) :
    ∃ body body', layout.statementBody 0 first = .ok body ∧
      layout.statementBody 0 second = .ok body' ∧ body ++ ("\n" : Text) ++ body' <:+: text := by
  have line (body : Text) : layout.commented 0 [] body = body := rfl
  rw [Layout.program, split, Except.bind_eq_ok] at printed
  obtain ⟨lines, hl, whole⟩ := printed
  obtain ⟨front, rest, -, hr, rfl⟩ := statements_append hl
  simp only [Layout.statements, Except.bind_eq_ok, Except.pure_eq_ok, bare, line] at hr
  obtain ⟨body, hb, -, ⟨body', hb', others, -, rfl⟩, rfl⟩ := hr
  refine ⟨body, body', hb, hb', ?_⟩
  have some_line : front ++ body :: body' :: others ≠ [] := by simp
  obtain ⟨line, lines, eq⟩ := List.exists_cons_of_ne_nil some_line
  have inside := infix_join "\n" front others body body'
  rw [eq] at whole inside
  obtain rfl := Except.ok.inj whole
  exact inside.trans (List.prefix_append _ _).isInfix

/-- The two exports of metadata follow each other in both kinds of wrappers. -/
theorem exists_metadataExports {config : WrapperConfig} {m : Metadata} {filename : Text}
    {serializers : List Text} {descriptor checks : Node}
    (h : m.elementName.isSome ∨ m.className.isSome) :
    ∃ before after, ownBody config m filename serializers descriptor checks =
      before ++ exported descriptorExport descriptor :: exported checksExport checks :: after := by
  cases he : m.elementName with
  | some name =>
    simp only [ownBody, he, elementBody]
    exact ⟨_, _, List.append_assoc _ (metadataExports descriptor checks) _⟩
  | none =>
    obtain ⟨name, hc⟩ : ∃ name, m.className = some name := by
      simpa [he, Option.isSome_iff_exists] using h
    simp only [ownBody, he, hc, abstractBody]
    exact ⟨_, [], rfl⟩

end Wrapper

open Printer Wrapper

/-- **Which names the printed keys stand for**: both objects have a line for each property and then
for each event, and the key of a line is read as the name that it was printed for just if that name
is no bare name with a line feed after it. Of such a name the line feed is lost. -/
theorem keys_of_program {layout : Layout} {config : WrapperConfig} {m : Metadata}
    {filename text : Text} {wrapper : Node} (described : m.elementName.isSome ∨ m.className.isSome)
    (hw : synthesize config m filename = .ok wrapper)
    (printed : layout.program wrapper = .ok text) :
    (∃ descriptorLines checkLines,
      List.Forall₂ (IsLineOf layout 1) (entryNames m) descriptorLines ∧
      List.Forall₂ (IsLineOf layout 1) (entryNames m) checkLines ∧
      exportLine descriptorExport (inheritedText layout m parentDescriptor descriptorLines) ++
        ("\n" : Text) ++
        exportLine checksExport (inheritedText layout m parentChecks checkLines) <:+: text) ∧
    ∀ name ∈ entryNames m, propertyName? (keyText name) = some (readAs name) ∧
      (propertyName? (keyText name) = some name ↔ ¬ LosesLineFeed name) := by
  constructor
  · obtain ⟨name, serializers, descriptor, checks, same, lists, statements⟩ :=
      synthesize_eq_settled hw
    obtain ⟨listed, checked⟩ := lists described
    obtain ⟨before, after, own⟩ := @exists_metadataExports config { m with elementName := name }
      (if filename.isEmpty then m.filename else filename) serializers descriptor checks
      (same ▸ described)
    rw [own, ← List.append_assoc] at statements
    obtain ⟨body, body', hb, hb', inside⟩ := infix_of_program statements ⟨rfl, rfl⟩ printed
    obtain ⟨descriptorLines, first, rfl⟩ := exists_exportLine listed hb
    obtain ⟨checkLines, second, rfl⟩ := exists_exportLine checked hb'
    exact ⟨descriptorLines, checkLines, first, second, inside⟩
  · intro name _
    rw [propertyName?_keyText]
    exact ⟨rfl, Option.some_inj.trans readAs_eq_self_iff⟩

/-- A class with a property whose name ends in a line feed. -/
def lineFeedMetadata : Metadata where
  filename := "panel.ts"
  className := some "Panel"
  properties := [("open\n", {})]

/-- The name ends with a line feed, which is lost when the key is read. -/
theorem keys_of_lineFeedMetadata :
    ∃ wrapper text, synthesize {} lineFeedMetadata "" = .ok wrapper ∧
      ({} : Layout).program wrapper = .ok text ∧
      ("open\n" : Text) ∈ entryNames lineFeedMetadata ∧
      propertyName? (keyText "open\n") = some "open" := by
  have success : ∃ wrapper text, synthesize {} lineFeedMetadata "" = .ok wrapper ∧
      ({} : Layout).program wrapper = .ok text := ⟨_, _, rfl, rfl⟩
  obtain ⟨wrapper, text, hw, printed⟩ := success
  have mem : ("open\n" : Text) ∈ entryNames lineFeedMetadata := List.mem_singleton_self _
  refine ⟨wrapper, text, hw, printed, mem, ?_⟩
  exact ((keys_of_program (.inr rfl) hw printed).2 _ mem).1

end ElementWrapper
