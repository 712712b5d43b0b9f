import ElementWrapper.Proofs.Module.Lowering
import ElementWrapper.Proofs.Script.Arguments

/-!
What a script reads in the text of a tree.
-/

namespace ElementWrapper

open Script

/-- The reading of a text that is copied as it stands, each group with its items. -/
def Script.copied (text : Text) : Nat × List (List Nat) :=
  match read? text with
  | some (commas, groups) => (commas, groups.map (List.replicate · 0))
  | none => (0, [])

/-- The items in round brackets that a script reads, if an item has so many commas. -/
def Script.total (group : List Nat) : Nat := (group.map (· + 1)).sum

/-- A string that goes on in a new line without an escape. -/
def Script.breaksLine : Text → Bool
  | .scalar '\\' :: .scalar '\r' :: .scalar '\n' :: rest => breaksLine rest
  | .scalar '\\' :: _ :: rest => breaksLine rest
  | c :: rest => c = .scalar '\n' || c = .scalar '\r' || breaksLine rest
  | [] => false

namespace Form

variable {α : Type}

/-- What is copied from the source can be read by itself: a construct has balanced brackets and ends
with an operand, a string does not break its line. -/
def isLegible : Form α → Bool
  | raw _ text _ => (read? text).isSome
  | string _ (some spelling) => !breaksLine spelling
  | _ => true

/-- The text of a word, or of a construct that is copied as it stands. -/
def word? : Form α → Option Text
  | identifier name => some name
  | raw _ text _ => some text
  | _ => none

/-- The parts of a form that are printed one by one in an expression. -/
def printed : Form α → List α
  | template _ substitutions => substitutions
  | property key value _ => [key, value]
  | object entries => entries
  | member target name _ => [target, name]
  | call callee arguments => callee :: arguments
  | assignment left right _ => [left, right]
  | _ => []

theorem mem_children_of_printed {form : Form α} {child : α} (mem : child ∈ form.printed) :
    child ∈ form.children := by
  cases form with
  | template quasis substitutions => exact List.mem_append_right quasis mem
  | property | object | member | call | assignment => exact mem
  | _ => cases mem

theorem isLegible_map {β : Type} (f : α → β) (form : Form α) :
    (form.map f).isLegible = form.isLegible := by
  cases form with
  | string _ spelling => cases spelling <;> rfl
  | _ => rfl

theorem printed_map {β : Type} (f : α → β) (form : Form α) :
    (form.map f).printed = form.printed.map f := by
  cases form <;> rfl

/-- The commas outside brackets in the text of a form, and for each pair of round brackets in the
order in which they are closed the items that the tree has between them, each with its commas. -/
def reading : Form (Nat × List (List Nat)) → Nat × List (List Nat)
  | raw _ text _ => Script.copied text
  | member target name _ => (target.1, target.2 ++ name.2)
  | call callee arguments =>
    (callee.1, callee.2 ++ arguments.flatMap (·.2) ++ [arguments.map (·.1)])
  | assignment left right _ => (left.1 + right.1, left.2 ++ right.2)
  | property key value _ => (0, key.2 ++ value.2)
  | object entries => (0, entries.flatMap (·.2))
  | _ => (0, [])

end Form

namespace Node

/-- What is copied into the text of an expression can be read by itself. -/
def isLegible (node : Node) : Bool :=
  node.reduce fun form => form.isLegible && form.printed.all id

/-- The commas outside brackets in the text of a tree, and the items in its round brackets. -/
def reading (node : Node) : Nat × List (List Nat) := node.reduce Form.reading

/-- The commas outside brackets in the text of a tree. -/
def commas (node : Node) : Nat := node.reading.1

/-- For each pair of round brackets in the text of a tree the commas of its items: for a call those
of its arguments. -/
def groups (node : Node) : List (List Nat) := node.reading.2

variable {location : Option Location} {comments : List Comment} {form : Form Node}

theorem reading_mk : (mk location comments form).reading = (form.map reading).reading :=
  reduce_mk _ location comments form

theorem isLegible_mk : (mk location comments form).isLegible =
    (form.isLegible && form.printed.all isLegible) := by
  rw [isLegible, reduce_mk, Form.isLegible_map, Form.printed_map, List.all_map]
  rfl

end Node

namespace Script

/-- A name is one item, also after a dot. -/
def IsName (name : Text) : Prop := Reads name .operator 0 [] ∧ Reads name .dot 0 []

/-- What is written in a form itself is read as one item, unless a string breaks its line; and a
template has a piece of text ahead of each substitution. -/
def IsLexical : Form Node → Prop
  | .identifier name => IsName name
  | .string _ (some spelling) => breaksLine spelling = false → Reads spelling .operator 0 []
  | .number spelling => Reads spelling .operator 0 []
  | .member _ name false => ∃ text, name.form.word? = some text ∧ IsName text
  | .assignment _ _ operator => operator = "="
  | .template quasis substitutions => substitutions.length ≤ quasis.length
  | _ => True

/-- The names, literals and comments in the text of an expression are tokens by themselves, and more
holds of its forms. -/
inductive Lexical (more : Form Node → Prop) : Node → Prop
  | mk {location : Option Location} {comments : List Comment} {form : Form Node}
    (closed : ∀ comment ∈ comments, IsClosed comment) (own : IsLexical form) (also : more form)
    (parts : ∀ child ∈ form.printed, Lexical more child) :
    Lexical more (.mk location comments form)

/-- The names, literals and comments in the text of an expression are tokens by themselves. -/
abbrev Spelled : Node → Prop := Lexical fun _ => True

/-- The text of an expression can be told apart into tokens. -/
abbrev Legible : Node → Prop := Lexical (·.isLegible)

theorem Lexical.legible {node : Node} (h : Spelled node) (legible : node.isLegible) :
    Legible node := by
  induction h with
  | mk closed own _ _ ih =>
    rw [Node.isLegible_mk, Bool.and_eq_true, List.all_eq_true] at legible
    exact ⟨closed, own, legible.1, fun child mem => ih child mem (legible.2 child mem)⟩

variable {layout : Layout}

theorem copied_reads {text : Text} (h : (read? text).isSome) :
    ReadsAs text ((copied text).1, (copied text).2.map total) := by
  obtain ⟨⟨commas, groups⟩, eq⟩ := Option.isSome_iff_exists.1 h
  have same : (groups.map (List.replicate · 0)).map total = groups := by
    simp [total, Function.comp_def]
  rw [copied, eq, ReadsAs]
  dsimp only
  rw [same]
  exact read?_eq_some.1 eq

/-- The reading of a tree as numbers of items. -/
def readingOf (node : Node) : Nat × List Nat := (node.commas, node.groups.map total)

/-- The text of a tree is read as the tree says. -/
def ReadsBack (layout : Layout) (node : Node) : Prop :=
  ∀ level text, layout.expression level node = .ok text → ReadsAs text (readingOf node)

/-- The text of an entry is read as the tree says. -/
def EntryReadsBack (layout : Layout) (node : Node) : Prop :=
  ∀ level others lines, layout.entries level (node :: others) = .ok lines →
    ∃ line rest, lines = line :: rest ∧ layout.entries level others = .ok rest ∧
      ReadsEntry line (node.groups.map total)

/-- Expressions that are printed one by one are read one by one. -/
theorem expressions_readBack {nodes : List Node} (h : ∀ node ∈ nodes, ReadsBack layout node)
    {level : Int} {texts : List Text}
    (printed : layout.expressions level nodes.length nodes = .ok texts) :
    List.Forall₂ ReadsAs texts (nodes.map readingOf) := by
  induction nodes generalizing texts with
  | nil =>
    obtain rfl := Except.ok.inj printed
    exact .nil
  | cons node nodes ih =>
    obtain ⟨first, others⟩ := List.forall_mem_cons.1 h
    simp only [List.length_cons, Layout.expressions, Except.bind_eq_ok, Except.pure_eq_ok]
      at printed
    obtain ⟨text, ht, texts, hts, rfl⟩ := printed
    exact .cons (first level text ht) (ih others hts)

/-- Entries that are printed one by one are read one by one. -/
theorem entries_readBack {nodes : List Node} (h : ∀ node ∈ nodes, EntryReadsBack layout node)
    {level : Int} {lines : List Text} (printed : layout.entries level nodes = .ok lines) :
    List.Forall₂ ReadsEntry lines (nodes.map fun node => node.groups.map total) := by
  induction nodes generalizing lines with
  | nil =>
    obtain rfl := Except.ok.inj printed
    exact .nil
  | cons node nodes ih =>
    obtain ⟨first, others⟩ := List.forall_mem_cons.1 h
    obtain ⟨line, rest, rfl, remaining, reads⟩ := first level nodes lines printed
    exact .cons reads (ih others remaining)

section

variable {location : Option Location} {comments : List Comment}

/-- A word is printed as it is, and closes no brackets. -/
theorem word_reads {name : Node} {own text : Text} (word : name.form.word? = some own)
    (isName : IsName own) {level : Int} (printed : layout.expression level name = .ok text) :
    own = text ∧ name.groups = [] := by
  obtain ⟨location, comments, form⟩ := name
  cases form with
  | identifier name =>
    obtain rfl := Option.some.inj word
    exact ⟨Except.ok.inj printed, rfl⟩
  | raw kind text operands =>
    obtain rfl := Option.some.inj word
    refine ⟨Except.ok.inj printed, ?_⟩
    rw [Node.groups, Node.reading_mk]
    simp only [Form.map, Form.reading, copied, read?_eq_some.2 isName.1, List.map_nil]
  | _ => cases word

/-- An access has the groups of its target and of its name. Without brackets a name stands behind
the dot. -/
theorem readsBack_member {target name : Node} {computed : Bool} (ht : ReadsBack layout target)
    (hn : ReadsBack layout name)
    (bare : computed = false → ∃ text, name.form.word? = some text ∧ IsName text) :
    ReadsBack layout (.mk location comments (.member target name computed)) := by
  intro level text printed
  simp only [Layout.expression, Except.bind_eq_ok, Except.pure_eq_ok] at printed
  obtain ⟨before, hb, after, ha, rfl⟩ := printed
  have reading : readingOf (.mk location comments (.member target name computed)) =
      (target.commas, target.groups.map total ++ name.groups.map total) := by
    simp [readingOf, Node.commas, Node.groups, Node.reading_mk, Form.map, Form.reading]
  rw [ReadsAs, reading]
  cases computed with
  | true => exact (ht level before hb).index (hn level after ha)
  | false =>
    obtain ⟨own, word, isName⟩ := bare rfl
    obtain ⟨rfl, empty⟩ := word_reads word isName ha
    rw [empty, List.map_nil, List.append_nil]
    exact (ht level before hb).member isName.2

/-- A call closes one group more than there are in its callee and its arguments, with the items of
its arguments. -/
theorem readsBack_call {callee : Node} {arguments : List Node} (hc : ReadsBack layout callee)
    (ha : ∀ argument ∈ arguments, ReadsBack layout argument) :
    ReadsBack layout (.mk location comments (.call callee arguments)) := by
  intro level text printed
  simp only [Layout.expression, Except.bind_eq_ok, Except.pure_eq_ok] at printed
  obtain ⟨texts, hts, before, hb, rfl⟩ := printed
  have reading : readingOf (.mk location comments (.call callee arguments)) =
      (callee.commas, callee.groups.map total ++ (arguments.map readingOf).flatMap (·.2) ++
        [((arguments.map readingOf).map (·.1 + 1)).sum]) := by
    simp [readingOf, Node.commas, Node.groups, Node.reading_mk, Form.map, Form.reading, total,
      List.flatMap_map, List.map_flatMap, Function.comp_def]
  rw [ReadsAs, reading]
  exact (hc level before hb).call (expressions_readBack ha hts)

/-- An assignment has the groups and the commas of both of its sides. -/
theorem readsBack_assignment {left right : Node} (hl : ReadsBack layout left)
    (hr : ReadsBack layout right) :
    ReadsBack layout (.mk location comments (.assignment left right "=")) := by
  intro level text printed
  simp only [Layout.expression, Except.bind_eq_ok, Except.pure_eq_ok] at printed
  obtain ⟨before, hb, after, ha, rfl⟩ := printed
  have reading : readingOf (.mk location comments (.assignment left right "=")) =
      (left.commas + right.commas, left.groups.map total ++ right.groups.map total) := by
    simp [readingOf, Node.commas, Node.groups, Node.reading_mk, Form.map, Form.reading]
  have split : before ++ " " ++ "=" ++ " " ++ after = before ++ (" " ++ "=" ++ " ") ++ after := by
    simp only [List.append_assoc]
  rw [ReadsAs, reading, split]
  exact (hl level before hb).followed (fun _ _ _ => rfl) (hr level after ha)

/-- An object has the groups of its entries. -/
theorem readsBack_object (blank : IsBlankLayout layout) {entries : List Node}
    (h : ∀ entry ∈ entries, EntryReadsBack layout entry) :
    ReadsBack layout (.mk location comments (.object entries)) := by
  intro level text printed
  simp only [Layout.expression, Except.bind_eq_ok, Except.pure_eq_ok] at printed
  obtain ⟨lines, hl, rfl⟩ := printed
  have reading : readingOf (.mk location comments (.object entries)) =
      (0, (entries.map fun node => node.groups.map total).flatten) := by
    simp [readingOf, Node.commas, Node.groups, Node.reading_mk, Form.map, Form.reading,
      List.flatMap_map, List.map_flatMap, ← List.flatMap_def]
  rw [ReadsAs, reading]
  exact Reads.object blank (entries_readBack h hl) level .operator

/-- An entry has the groups of its key and of its value. A key is printed in brackets, as a plain
name or as it is, and the colon behind it begins an operand in each case. -/
theorem entryReadsBack_property (blank : IsBlankLayout layout)
    (closed : ∀ comment ∈ comments, IsClosed comment) {key value : Node} {computed : Bool}
    (hk : ReadsBack layout key) (hv : ReadsBack layout value) :
    EntryReadsBack layout (.mk location comments (.property key value computed)) := by
  intro level others lines printed
  have reading : (Node.mk location comments (.property key value computed)).groups.map total =
      key.groups.map total ++ value.groups.map total := by
    simp [Node.groups, Node.reading_mk, Form.map, Form.reading]
  -- Whatever the key is written as, the rest of the line is the same.
  have line {name : Text} {commas : Nat}
      (reads : Reads name .operator commas (key.groups.map total))
      (h : (do
        let code ← layout.expression level value
        return layout.commented level comments (name ++ ": " ++ code) ::
          (← layout.entries level others)) = .ok lines) :
      ∃ line rest, lines = line :: rest ∧ layout.entries level others = .ok rest ∧ ReadsEntry line
        ((Node.mk location comments (.property key value computed)).groups.map total) := by
    simp only [Except.bind_eq_ok, Except.pure_eq_ok] at h
    obtain ⟨code, hcode, rest, hr, rfl⟩ := h
    have colon : Separates ": " := fun _ _ _ => rfl
    have pair := reads.followed colon (hv level code hcode)
    refine ⟨_, rest, rfl, hr, ?_⟩
    rw [reading]
    exact pair.entry.commented blank closed level
  simp only [Layout.entries] at printed
  split at printed
  · obtain ⟨name, hn, h⟩ := Except.bind_eq_ok.1 printed
    obtain ⟨text, ht, rfl⟩ := Except.map_eq_ok.1 hn
    exact line (hk level text ht).bracketed h
  · next name string =>
    split at printed
    · next plain =>
      obtain ⟨_, spelling, form⟩ :=
        @Lowering.exists_string_of_stringValue? key (by rw [string]; rfl)
      have none : key.groups.map total = [] := by
        obtain ⟨place, remarks, _⟩ := key
        obtain rfl : _ = Form.string _ spelling := form
        rfl
      exact line (none ▸ reads_isPlainName plain .operator) printed
    · obtain ⟨name, hn, h⟩ := Except.bind_eq_ok.1 printed
      exact line (hk level name hn) h
  · obtain ⟨name, hn, h⟩ := Except.bind_eq_ok.1 printed
    exact line (hk level name hn) h

/-- An entry of any other form is printed as an expression. -/
theorem EntryReadsBack.of_readsBack (blank : IsBlankLayout layout) {node : Node}
    (closed : ∀ comment ∈ node.comments, IsClosed comment) (h : ReadsBack layout node)
    (plain : ∀ key value computed, node.form ≠ .property key value computed) :
    EntryReadsBack layout node := by
  intro level others lines printed
  obtain ⟨location, comments, form⟩ := node
  rw [Layout.entries] at printed
  · simp only [Except.bind_eq_ok, Except.pure_eq_ok] at printed
    obtain ⟨text, ht, rest, hr, rfl⟩ := printed
    exact ⟨_, rest, rfl, hr, (h level text ht).entry.commented blank closed level⟩
  · rintro _ _ key value computed ⟨⟩
    exact plain key value computed rfl

end

theorem readsBack_of_reading {form : Form Node} {location : Option Location}
    {comments : List Comment} {text : Text} {reading : Nat × List (List Nat)}
    (same : (form.map Node.reading).reading = reading)
    (reads : ReadsAs text (reading.1, reading.2.map total))
    (printed : ∀ level, layout.expression level (.mk location comments form) = .ok text) :
    ReadsBack layout (.mk location comments form) := by
  intro level written h
  obtain rfl : text = written := Except.ok.inj ((printed level).symm.trans h)
  rw [readingOf, Node.commas, Node.groups, Node.reading_mk, same]
  exact reads

/-- **An expression is read back** as its tree says. -/
theorem readsBack (blank : IsBlankLayout layout) {node : Node} (free : TemplateFree node)
    (legible : Legible node) : ReadsBack layout node ∧ EntryReadsBack layout node := by
  induction node using Node.induction with
  | step location comments form ih =>
    obtain ⟨noTemplate, free⟩ := free
    obtain ⟨closed, own, also, parts⟩ := legible
    have word {name : Text} (parts : ∀ c ∈ name, c.all Literal.isNamePart) (ne : name ≠ []) :
        Reads name .operator 0 [] :=
      reads_token (fun c mem => isTokenPart_of_isNamePart (parts c mem)) ne .operator
    have expression (h : ReadsBack layout (.mk location comments form))
        (plain : ∀ key value computed, form ≠ .property key value computed) :
        ReadsBack layout (.mk location comments form) ∧
          EntryReadsBack layout (.mk location comments form) :=
      ⟨h, .of_readsBack blank closed h plain⟩
    have both (child : Node) (mem : child ∈ form.printed) :=
      ih child (Form.mem_children_of_printed mem) (free child (Form.mem_children_of_printed mem))
        (parts child mem)
    cases form with
    | identifier name =>
      exact expression (readsBack_of_reading rfl own.1 fun _ => rfl) nofun
    | string value spelling =>
      refine expression (readsBack_of_reading rfl ?_ fun _ => rfl) nofun
      cases spelling with
      | none => exact reads_quote value .operator
      | some spelling => exact own (by simpa [Form.isLegible] using also)
    | number spelling => exact expression (readsBack_of_reading rfl own fun _ => rfl) nofun
    | boolean value =>
      refine expression (readsBack_of_reading rfl (word ?_ ?_) fun _ => rfl) nofun
      · cases value <;> decide
      · cases value <;> decide
    | null =>
      exact expression (readsBack_of_reading rfl (word (by decide) (by decide)) fun _ => rfl) nofun
    | raw kind text operands =>
      exact expression (readsBack_of_reading rfl (copied_reads also) fun _ => rfl) nofun
    | member target name computed =>
      obtain ⟨ht, others⟩ := List.forall_mem_cons.1 both
      refine expression (readsBack_member ht.1 (List.forall_mem_singleton.1 others).1 ?_) nofun
      rintro rfl
      exact own
    | call callee arguments =>
      obtain ⟨hc, ha⟩ := List.forall_mem_cons.1 both
      exact expression (readsBack_call hc.1 fun argument mem => (ha argument mem).1) nofun
    | assignment left right operator =>
      obtain rfl : operator = "=" := own
      obtain ⟨hl, others⟩ := List.forall_mem_cons.1 both
      exact expression (readsBack_assignment hl.1 (List.forall_mem_singleton.1 others).1) nofun
    | object entries =>
      exact expression (readsBack_object blank fun entry mem => (both entry mem).2) nofun
    | property key value computed =>
      obtain ⟨hk, others⟩ := List.forall_mem_cons.1 both
      have hv := List.forall_mem_singleton.1 others
      exact ⟨fun _ _ => nofun, entryReadsBack_property blank closed hk.1 hv.1⟩
    | template => cases noTemplate
    | _ => exact expression (fun _ _ => nofun) nofun

end Script

end ElementWrapper
