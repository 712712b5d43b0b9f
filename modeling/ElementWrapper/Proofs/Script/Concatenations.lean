import ElementWrapper.Proofs.Source.Parsing

/-!
The calls that stand for a template, as a script reads them in the printed text. Lowering makes them
of strings, of the name `concat` and of the substitutions, so that what could be told apart into
tokens before can be told apart afterwards (`legible_of_lower`), and the text is read as the lowered
tree says (`read?_of_lower`). The items between the brackets of a call are its arguments unless one
of them has a comma outside brackets: then there are more of them, by one for each comma.
-/

namespace ElementWrapper

namespace Form

variable {α : Type}

/-- The parts of a form that are printed between commas: the arguments of a call, and the
substitutions of a template, which become arguments. -/
def items : Form α → List α
  | template _ substitutions => substitutions
  | call _ arguments => arguments
  | _ => []

theorem mem_printed_of_items {form : Form α} {item : α} (mem : item ∈ form.items) :
    item ∈ form.printed := by
  cases form with
  | template => exact mem
  | call => exact List.mem_cons_of_mem _ mem
  | _ => cases mem

theorem items_map {β : Type} (f : α → β) (form : Form α) :
    (form.map f).items = form.items.map f := by
  cases form <;> rfl

end Form

namespace Script

open Lowering

/-! ## Lowering -/

theorem legible_string (text : Text) : Legible (Node.string text) := .mk nofun trivial rfl nofun

theorem isName_concat : IsName "concat" := by
  have letters : ∀ c ∈ ("concat" : Text), c.all Literal.isNamePart := by decide
  have token (start : Last) : Reads "concat" start 0 [] :=
    reads_token (fun c mem => isTokenPart_of_isNamePart (letters c mem)) nofun start
  exact ⟨token .operator, token .dot⟩

variable {location : Option Location} {comments : List Comment}

theorem legible_call {callee : Node} {arguments : List Node} :
    Legible (.mk location comments (.call callee arguments)) ↔
      (∀ comment ∈ comments, IsClosed comment) ∧ Legible callee ∧
        ∀ argument ∈ arguments, Legible argument := by
  constructor
  · rintro ⟨closed, -, -, parts⟩
    exact ⟨closed, List.forall_mem_cons.1 parts⟩
  · rintro ⟨closed, parts⟩
    exact .mk closed trivial rfl (List.forall_mem_cons.2 parts)

/-- A chain of calls can be told apart into tokens if its parts can. -/
theorem legible_ofParts {parts : List Node} (h : ∀ part ∈ parts, Legible part) :
    Legible (ofParts parts) := by
  refine ofParts_induction legible_string (fun target argument ht ha => ?_)
    (fun _ _ _ _ _ hc hp => ?_) h
  · have name : Legible (Node.identifier "concat") := .mk nofun isName_concat rfl nofun
    have callee : Legible (.of (.member target (Node.identifier "concat") false)) :=
      .mk nofun ⟨"concat", rfl, isName_concat⟩ rfl
        (List.forall_mem_cons.2 ⟨ht, List.forall_mem_singleton.2 name⟩)
    exact legible_call.2 ⟨nofun, callee, List.forall_mem_singleton.2 ha⟩
  · obtain ⟨closed, callee, arguments⟩ := legible_call.1 hc
    exact legible_call.2 ⟨closed, callee,
      List.forall_mem_append.2 ⟨arguments, List.forall_mem_singleton.2 hp⟩⟩

/-- A word stays as it is. -/
theorem word?_of_lower {node result : Node} (h : lower node = .ok result) {word : Text}
    (hw : node.form.word? = some word) : result.form.word? = some word := by
  obtain ⟨location, comments, form⟩ := node
  obtain ⟨quasis, expressions, rfl⟩ | ne := form.template_or_ne
  · cases hw
  · obtain rfl := Except.ok.inj ((lower_of_ne ne (lower_children h)).symm.trans h)
    cases form with
    | identifier | raw => exact hw
    | _ => cases hw

/-- Lowering leaves every text as legible as it was. -/
theorem legible_of_lower {node result : Node} (h : lower node = .ok result)
    (legible : Legible node) : Legible result := by
  induction node using Node.induction generalizing result with
  | step location comments form ih =>
    obtain ⟨closed, own, also, parts⟩ := legible
    have children := lower_children h
    have below : ∀ child ∈ form.printed, Legible (lowered child) := fun child mem =>
      ih child (Form.mem_children_of_printed mem)
        (children child (Form.mem_children_of_printed mem)) (parts child mem)
    obtain ⟨quasis, expressions, rfl⟩ | ne := form.template_or_ne
    · rw [lower_mk children] at h
      obtain ⟨pieces, hp, rfl⟩ := lowerTemplate_template.1 h
      have whole : Legible (ofParts pieces) := by
        refine legible_ofParts fun part mem => ?_
        obtain ⟨text, rfl⟩ | substitution := mem_parts hp part mem
        · exact legible_string text
        · obtain ⟨child, own, rfl⟩ := List.mem_map.1 substitution
          exact below child own
      generalize ofParts pieces = concatenation at whole
      obtain ⟨-, own, also, parts⟩ := whole
      exact .mk closed own also parts
    · obtain rfl := Except.ok.inj ((lower_of_ne ne children).symm.trans h)
      refine .mk closed ?_ ((Form.isLegible_map lowered form).trans also) ?_
      · cases form with
        | string value spelling => cases spelling <;> exact own
        | member target name computed =>
          cases computed with
          | true => trivial
          | false =>
            obtain ⟨text, word, isName⟩ := own
            exact ⟨text, word?_of_lower (children name (by simp [Form.children])) word, isName⟩
        | template => cases ne
        | _ => exact own
      · rw [Form.printed_map]
        exact List.forall_mem_map.2 below

/-! ## Items -/

section

variable {form : Form Node}

/-- No item in a tree has a comma outside brackets. -/
inductive Undivided : Node → Prop
  | mk {location : Option Location} {comments : List Comment} {form : Form Node}
    (items : ∀ item ∈ form.items, item.commas = 0)
    (parts : ∀ part ∈ form.printed, Undivided part) : Undivided (.mk location comments form)

theorem undivided_mk : Undivided (.mk location comments form) ↔
    (∀ item ∈ form.items, item.commas = 0) ∧ ∀ part ∈ form.printed, Undivided part :=
  ⟨fun ⟨items, parts⟩ => ⟨items, parts⟩, fun ⟨items, parts⟩ => .mk items parts⟩

theorem undivided_string (text : Text) : Undivided (Node.string text) := .mk nofun nofun

/-- An item that is printed without a comma outside brackets, neither its own nor one in an item of
its own. -/
def IsSingle (item : Node) : Prop := item.commas = 0 ∧ Undivided item

theorem undivided_call {callee : Node} {arguments : List Node} :
    Undivided (.mk location comments (.call callee arguments)) ↔
      Undivided callee ∧ ∀ argument ∈ arguments, IsSingle argument := by
  simp only [undivided_mk, Form.items, Form.printed, List.forall_mem_cons, IsSingle, forall_and]
  tauto

theorem undivided_template {quasis expressions : List Node} :
    Undivided (.mk location comments (.template quasis expressions)) ↔
      ∀ expression ∈ expressions, IsSingle expression := by
  simp only [undivided_mk, Form.items, Form.printed, IsSingle, forall_and]

/-- One more part divides a chain just if it is divided itself. -/
theorem undivided_push (chain : Chain) (part : Node) :
    Undivided (chain.push part).node ↔ Undivided chain.node ∧ IsSingle part := by
  simp only [Chain.push]
  split
  · next hn _ =>
    rw [hn, undivided_call, undivided_call, List.forall_mem_append, List.forall_mem_singleton,
      and_assoc]
  · have callee : Undivided (.of (.member chain.node (Node.identifier "concat") false)) ↔
        Undivided chain.node := by
      have name : Undivided (Node.identifier "concat") :=
        .mk (List.forall_mem_nil _) (List.forall_mem_nil _)
      simp [Node.of, undivided_mk, Form.items, Form.printed, name]
    rw [concatCall, Node.of, undivided_call, callee, List.forall_mem_singleton]

theorem undivided_foldl_push (chain : Chain) (parts : List Node) :
    Undivided (parts.foldl Chain.push chain).node ↔
      Undivided chain.node ∧ ∀ part ∈ parts, IsSingle part := by
  induction parts generalizing chain with
  | nil => simp
  | cons part parts ih =>
    rw [List.foldl_cons, ih, undivided_push, List.forall_mem_cons, and_assoc]

theorem commas_mk :
    (Node.mk location comments form).commas = (form.map Node.reading).reading.1 := by
  rw [Node.commas, Node.reading_mk]

theorem commas_push (chain : Chain) (part : Node) :
    (chain.push part).node.commas = chain.node.commas := by
  simp only [Chain.push]
  split
  · next hn _ =>
    rw [hn, commas_mk, commas_mk]
    rfl
  · rfl

theorem commas_foldl_push (chain : Chain) (parts : List Node) :
    (parts.foldl Chain.push chain).node.commas = chain.node.commas := by
  induction parts generalizing chain with
  | nil => rfl
  | cons part parts ih => rw [List.foldl_cons, ih, commas_push]

/-- A literal string is a single item. -/
theorem isSingle_of_stringValue? {node : Node} (h : node.stringValue?.isSome) : IsSingle node := by
  obtain ⟨location, comments, form⟩ := node
  cases form with
  | string => exact ⟨rfl, .mk nofun nofun⟩
  | _ => cases h

/-- A chain has no comma outside brackets, and is undivided just if each of its parts is single. -/
theorem ofParts_single (parts : List Node) :
    (ofParts parts).commas = 0 ∧
      (Undivided (ofParts parts) ↔ ∀ part ∈ parts, IsSingle part) := by
  cases parts with
  | nil => exact ⟨rfl, by simp [ofParts, undivided_string]⟩
  | cons head rest =>
    simp only [ofParts]
    split
    · next string =>
      have single := isSingle_of_stringValue? string
      exact ⟨(commas_foldl_push _ _).trans single.1, by
        rw [concatenation, undivided_foldl_push, List.forall_mem_cons]
        exact and_congr_left fun _ => iff_of_true single.2 single⟩
    · refine ⟨commas_foldl_push _ _, ?_⟩
      rw [concatenation, undivided_foldl_push]
      simp [undivided_string]

/-- Every substitution is a part, unless it is an empty string. -/
theorem mem_parts_of_mem {quasis expressions pieces : List Node}
    (enough : expressions.length ≤ quasis.length) (h : parts quasis expressions = .ok pieces)
    {expression : Node} (mem : expression ∈ expressions) :
    expression ∈ pieces ∨ isEmptyString expression := by
  induction quasis generalizing expressions pieces with
  | nil =>
    obtain rfl := List.length_eq_zero_iff.1 (Nat.le_zero.1 enough)
    cases mem
  | cons quasi quasis ih =>
    simp only [parts, Except.bind_eq_ok, Except.pure_eq_ok] at h
    obtain ⟨cooked, _, rest, hr, rfl⟩ := h
    cases expressions with
    | nil => cases mem
    | cons first others =>
      obtain rfl | later := List.mem_cons.1 mem
      · cases empty : isEmptyString expression with
        | true => exact .inr rfl
        | false => simp [empty]
      · exact (ih (Nat.le_of_succ_le_succ enough) hr later).imp_left (List.mem_append_right _)

/-- Of the parts of a template only its expressions can be divided. -/
theorem forall_parts_single {quasis expressions pieces : List Node}
    (enough : expressions.length ≤ quasis.length) (h : parts quasis expressions = .ok pieces) :
    (∀ part ∈ pieces, IsSingle part) ↔ ∀ expression ∈ expressions, IsSingle expression := by
  constructor
  · intro single expression mem
    obtain there | empty := mem_parts_of_mem enough h mem
    · exact single expression there
    · obtain ⟨_, _, form⟩ := expression
      obtain ⟨spelling, rfl⟩ := eq_empty_of_isEmptyString empty
      exact isSingle_of_stringValue? rfl
  · intro single part mem
    obtain ⟨text, rfl⟩ | there := mem_parts h part mem
    · exact ⟨rfl, undivided_string text⟩
    · exact single part there

/-- Lowering changes neither the commas outside brackets nor those in the items. -/
theorem single_of_lower {more : Form Node → Prop} {node result : Node} (h : lower node = .ok result)
    (lexical : Lexical more node) :
    result.commas = node.commas ∧ (Undivided result ↔ Undivided node) := by
  induction lexical generalizing result with
  | @mk location comments form closed own also parts ih =>
    have children := lower_children h
    have below : ∀ child ∈ form.printed, (lowered child).commas = child.commas ∧
        (Undivided (lowered child) ↔ Undivided child) := fun child mem =>
      ih child mem (children child (Form.mem_children_of_printed mem))
    obtain ⟨quasis, expressions, rfl⟩ | ne := form.template_or_ne
    · rw [lower_mk children] at h
      obtain ⟨pieces, hp, rfl⟩ := lowerTemplate_template.1 h
      obtain ⟨commas, undivided⟩ := ofParts_single pieces
      have enough : (expressions.map lowered).length ≤ (quasis.map lowered).length := by
        rw [List.length_map, List.length_map]
        exact own
      rw [forall_parts_single enough hp, List.forall_mem_map] at undivided
      have single : (∀ expression ∈ expressions, IsSingle (lowered expression)) ↔
          ∀ expression ∈ expressions, IsSingle expression := forall₂_congr fun child mem => by
        rw [IsSingle, IsSingle, (below child mem).1, (below child mem).2]
      generalize ofParts pieces = whole at commas undivided
      obtain ⟨_, _, form⟩ := whole
      refine ⟨commas, ?_⟩
      rw [undivided_mk] at undivided
      exact undivided_mk.trans (undivided.trans (single.trans undivided_template.symm))
    · obtain rfl := Except.ok.inj ((lower_of_ne ne children).symm.trans h)
      constructor
      · cases form with
        | member target | call target => exact (below target (List.mem_cons_self ..)).1
        | assignment left right =>
          exact congrArg₂ (· + ·) (below left (by simp [Form.printed])).1
            (below right (by simp [Form.printed])).1
        | template => cases ne
        | _ => rfl
      · rw [undivided_mk, undivided_mk, Form.items_map, Form.printed_map, List.forall_mem_map,
          List.forall_mem_map]
        exact and_congr
          (forall₂_congr fun item mem => by rw [(below item (Form.mem_printed_of_items mem)).1])
          (forall₂_congr fun part mem => (below part mem).2)

/-- A group of items without commas. -/
def IsPlainGroup (group : List Nat) : Prop := ∀ commas ∈ group, commas = 0

theorem isPlainGroup_of_copied {text : Text} {group : List Nat} (mem : group ∈ (copied text).2) :
    IsPlainGroup group := by
  rw [copied] at mem
  split at mem
  · obtain ⟨count, -, rfl⟩ := List.mem_map.1 mem
    exact fun commas found => List.eq_of_mem_replicate found
  · cases mem

/-- The groups of a form are plain just if its items have no commas and the groups below it are
plain. -/
theorem forall_groups_iff (ne : form.isTemplate = false) :
    (∀ group ∈ (Node.mk location comments form).groups, IsPlainGroup group) ↔
      (∀ item ∈ form.items, item.commas = 0) ∧
        ∀ part ∈ form.printed, ∀ group ∈ part.groups, IsPlainGroup group := by
  rw [Node.groups, Node.reading_mk]
  cases form with
  | call callee arguments =>
    simp [Form.map, Form.reading, Form.items, Form.printed, IsPlainGroup, or_imp, forall_and,
      Node.groups, Node.commas]
    tauto
  | member target name | assignment target name | property target name =>
    simp [Form.map, Form.reading, Form.items, Form.printed, or_imp, forall_and, Node.groups]
  | object entries =>
    simp [Form.map, Form.reading, Form.items, Form.printed, Node.groups]
    tauto
  | raw kind text operands =>
    simpa [Form.map, Form.reading, Form.items, Form.printed] using fun _ => isPlainGroup_of_copied
  | template => cases ne
  | _ => simp [Form.map, Form.reading, Form.items, Form.printed]

theorem zero_groups_iff {node : Node} (free : TemplateFree node) :
    (∀ group ∈ node.groups, IsPlainGroup group) ↔ Undivided node := by
  induction node using Node.induction with
  | step location comments form ih =>
    obtain ⟨ne, parts⟩ := free
    rw [forall_groups_iff ne, undivided_mk]
    exact and_congr_right fun _ => forall₂_congr fun part mem =>
      ih part (Form.mem_children_of_printed mem) (parts part (Form.mem_children_of_printed mem))

end

/-! ## Reading -/

/-- There are as many items as the tree says just if none of them has a comma. -/
theorem total_eq_length_iff {group : List Nat} :
    total group = group.length ↔ IsPlainGroup group := by
  rw [IsPlainGroup]
  induction group with
  | nil => simp [total]
  | cons commas group ih =>
    have least : group.length ≤ total group := by
      rw [total, ← List.length_map (· + 1)]
      exact List.length_le_sum_of_one_le _ (List.forall_mem_map.2 fun _ _ => Nat.le_add_left ..)
    rw [List.forall_mem_cons, ← ih]
    simp only [total, List.map_cons, List.sum_cons, List.length_cons] at least ⊢
    omega

/-- The text of a lowered tree is read as the tree says. -/
theorem read?_of_lower {node result : Node} (lowered : lower node = .ok result)
    (legible : Legible node) {layout : Layout} (blank : IsBlankLayout layout) {level : Int}
    {text : Text} (printed : layout.expression level result = .ok text) :
    read? text = some (result.commas, result.groups.map total) :=
  read?_eq_some.2 <|
    (readsBack blank (templateFree_of_lower lowered) (legible_of_lower lowered legible)).1 level
      text printed

theorem totals_iff_undivided {node result : Node} (lowered : lower node = .ok result)
    (legible : Legible node) :
    result.groups.map total = result.groups.map List.length ↔ Undivided node := by
  rw [List.map_inj_left, ← (single_of_lower lowered legible).2,
    ← zero_groups_iff (templateFree_of_lower lowered)]
  exact forall₂_congr fun group _ => total_eq_length_iff

end Script

namespace Source

open Lowering Script

/-- **The calls that stand for the templates of a source text**, as a script reads them. Whatever
part of the text is lowered and printed, if what is copied into it can be read by itself: between
the brackets of each call a script finds its arguments, and one more for each comma that stands
outside brackets in them. So it finds as many as the call has exactly if neither an argument nor a
substitution of the template has such a comma. -/
theorem arguments_of_parse {source : List Char} {root tree : Tree}
    (parsed : parse source = some root) (within : tree.Within root) {levels : Nat}
    {node result : Node} (read : (Document.ofChars source).readWithin levels tree = .ok node)
    (legible : node.isLegible) (lowered : lower node = .ok result) {layout : Layout}
    (blank : IsBlankLayout layout) {level : Int} {text : Text}
    (printed : layout.expression level result = .ok text) :
    read? text = some (result.commas, result.groups.map total) ∧
      (result.groups.map total = result.groups.map List.length ↔ Undivided node) := by
  have legible : Legible node := (spelled_of_parse parsed within levels node read).legible legible
  exact ⟨read?_of_lower lowered legible blank printed, totals_iff_undivided lowered legible⟩

/-- A template with a sequence for its substitution. -/
def sequenceText : List Char := "`$\x7b'a', 'b'\x7d`".toList

/-- The call that stands for the template has one argument, and a script reads two. -/
theorem arguments_of_sequence :
    ∃ root tree node result, parse sequenceText = some root ∧ tree.Within root ∧
      (Document.ofChars sequenceText).readWithin 2 tree = .ok node ∧ node.isLegible ∧
      lower node = .ok result ∧ ({} : Layout).expression 0 result = .ok "\"\".concat('a', 'b')" ∧
      result.groups = [[1]] ∧ read? "\"\".concat('a', 'b')" = some (0, [2]) ∧ ¬ Undivided node := by
  have success : (parse sequenceText).any fun root => root.children.any fun statement =>
      statement.children.any fun tree =>
        ((Document.ofChars sequenceText).readWithin 2 tree).toOption.any fun node =>
          node.isLegible && (lower node).toOption.any fun result =>
            result.commas = 0 && result.groups = [[1]] &&
              (({} : Layout).expression 0 result).toOption =
                some ("\"\".concat('a', 'b')" : Text) := by
    decide +kernel
  simp only [Option.any_eq_true, List.any_eq_true, Bool.and_eq_true, decide_eq_true_eq,
    Except.toOption_eq_some] at success
  obtain ⟨root, parsed, statement, first, tree, second, node, read, legible, result, lowered,
    ⟨commas, groups⟩, printed⟩ := success
  have within : tree.Within root := .part first (.part second .whole)
  have blank : IsBlankLayout {} := by
    change ∀ c ∈ ("  " : Text), isBlank c
    decide
  obtain ⟨found, divided⟩ := arguments_of_parse parsed within read legible lowered blank printed
  rw [commas, groups] at found
  rw [groups] at divided
  exact ⟨root, tree, node, result, parsed, within, read, legible, lowered, printed, groups, found,
    divided.not.1 (by decide)⟩

end Source

end ElementWrapper
