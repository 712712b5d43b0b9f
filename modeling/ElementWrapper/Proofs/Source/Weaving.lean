import ElementWrapper.Proofs.Source.Signs

/-!
Which signs `?.` stand in the text that is printed for an expression. The text is woven of parts of
the source that are copied as they stand, with their signs, and of pieces without a sign (`Woven`):
the marks of the printer, comments, and what a template has between its substitutions. Each form of
an expression is printed as its parts are, one after the other (`Weaves`), and the bound on the
levels carries the induction over the tree. What is kept of the signs is then what `Account` says.
-/

namespace ElementWrapper

/-- A comment with its delimiters. -/
def Comment.delimited (comment : Comment) : Text :=
  if comment.block then "/*" ++ comment.value ++ "*/" else "//" ++ comment.value

namespace Source

open Literal (EscapeError isPlainName)
open Script (IsBlankLayout isBlank_of_mem_margin)

/-- What a template has between its substitutions. -/
def Document.pieces (d : Document) (tree : Tree) : List Node :=
  d.quasis (tree.start.byte + 1) (tree.stop.byte - 1)
    (tree.namedChildren.filter (·.kind = "template_substitution"))

/-- A text is made of parts of a tree that are copied from the source, and of pieces without a sign.
The positions are those of the signs in the parts that are copied, in their order in the text. -/
inductive Woven (d : Document) (whole : Tree) : Text → List Point → Prop
  /-- A part as it stands in the source. -/
  | copy {part : Tree} (within : part.Within whole) : Woven d whole (d.text part) part.signs
  /-- A comment. -/
  | remark {part : Tree} (within : part.Within whole) (comment : part.isComment) :
    Woven d whole (d.comment part).delimited []
  /-- What a template has between its substitutions. -/
  | piece {part : Tree} (within : part.Within whole) (template : part.kind = "template_string")
    {piece : Node} (mem : piece ∈ d.pieces part) : Woven d whole piece.form.quasiSource []
  /-- Text without a question mark. -/
  | mark {text : Text} (plain : CodePoint.scalar '?' ∉ text) : Woven d whole text []
  | append {text more : Text} {points others : List Point} (first : Woven d whole text points)
    (second : Woven d whole more others) : Woven d whole (text ++ more) (points ++ others)

variable {d : Document} {whole : Tree} {layout : Layout}

namespace Woven

variable {text more : Text} {points : List Point}

theorem followed (h : Woven d whole text points) (plain : CodePoint.scalar '?' ∉ more) :
    Woven d whole (text ++ more) points := by
  have both : Woven d whole (text ++ more) (points ++ []) := h.append (.mark plain)
  rwa [List.append_nil] at both

theorem preceded (plain : CodePoint.scalar '?' ∉ more) (h : Woven d whole text points) :
    Woven d whole (more ++ text) points := .append (.mark plain) h

/-- Parts are woven together with a separator that has no sign. -/
theorem join {separator : Text} (plain : CodePoint.scalar '?' ∉ separator) {texts : List Text}
    {each : List (List Point)} (h : List.Forall₂ (Woven d whole) texts each) :
    Woven d whole (Text.join separator texts) each.flatten := by
  induction h with
  | nil => exact .mark (List.not_mem_nil)
  | @cons text points texts each own rest ih =>
    cases texts with
    | nil =>
      cases rest
      rw [List.flatten_cons, List.flatten_nil, List.append_nil]
      exact own
    | cons next texts => exact (own.followed plain).append ih

end Woven

/-! ## Texts of nodes -/

/-- The text of an expression has the signs at some positions, and that of a string has none. -/
structure Weaves (d : Document) (whole : Tree) (layout : Layout) (node : Node)
    (points : List Point) : Prop where
  text : ∀ {level text}, layout.expression level node = .ok text → Woven d whole text points
  string : node.stringValue?.isSome → points = []

/-- The text of an entry of an object has the signs at some positions, whatever comments stand
before it. -/
def WeavesEntry (d : Document) (whole : Tree) (layout : Layout) (node : Node)
    (points : List Point) : Prop :=
  ∀ comments : List Comment, (∀ comment ∈ comments, Woven d whole comment.delimited []) →
    ∀ {level others lines},
      layout.entries level (node.withComments comments :: others) = .ok lines →
      ∃ line rest, lines = line :: rest ∧ layout.entries level others = .ok rest ∧
        Woven d whole line points

section

variable {location : Option Location} {comments : List Comment} {first second : Node}
  {points others : List Point}

theorem Weaves.member {computed : Bool} (h : Weaves d whole layout first points)
    (hs : Weaves d whole layout second others) :
    Weaves d whole layout (.mk location comments (.member first second computed))
      (points ++ others) := by
  refine ⟨fun printed => ?_, nofun⟩
  simp only [Layout.expression, Except.bind_eq_ok, Except.pure_eq_ok] at printed
  obtain ⟨target, ht, name, hn, rfl⟩ := printed
  split
  · exact (((h.text ht).followed (by decide)).append (hs.text hn)).followed (by decide)
  · exact ((h.text ht).followed (by decide)).append (hs.text hn)

theorem Weaves.assignment (h : Weaves d whole layout first points)
    (hs : Weaves d whole layout second others) :
    Weaves d whole layout (.mk location comments (.assignment first second "="))
      (points ++ others) := by
  refine ⟨fun printed => ?_, nofun⟩
  simp only [Layout.expression, Except.bind_eq_ok, Except.pure_eq_ok] at printed
  obtain ⟨left, hl, right, hr, rfl⟩ := printed
  exact ((((h.text hl).followed (by decide)).followed (by decide)).followed (by decide)).append
    (hs.text hr)

end

/-- The texts of expressions, one after the other, are woven of their signs. -/
theorem woven_expressions {nodes : List Node} {each : List (List Point)}
    (h : List.Forall₂ (Weaves d whole layout) nodes each) {level : Int} {count : Nat}
    (enough : nodes.length ≤ count) {texts : List Text}
    (printed : layout.expressions level count nodes = .ok texts) :
    List.Forall₂ (Woven d whole) texts each := by
  induction h generalizing count texts with
  | nil =>
    obtain rfl := Except.ok.inj printed
    exact .nil
  | cons own rest ih =>
    obtain ⟨count, rfl⟩ := Nat.exists_eq_succ_of_ne_zero (Nat.ne_zero_of_lt enough)
    simp only [Layout.expressions, Except.bind_eq_ok, Except.pure_eq_ok] at printed
    obtain ⟨text, ht, texts, hts, rfl⟩ := printed
    exact .cons (own.text ht) (ih (Nat.le_of_succ_le_succ enough) hts)

section

variable {location : Option Location} {comments : List Comment} {points : List Point}
  {each : List (List Point)}

theorem Weaves.call {callee : Node} {arguments : List Node}
    (h : Weaves d whole layout callee points)
    (ha : List.Forall₂ (Weaves d whole layout) arguments each) :
    Weaves d whole layout (.mk location comments (.call callee arguments))
      (points ++ each.flatten) := by
  refine ⟨fun printed => ?_, nofun⟩
  simp only [Layout.expression, Except.bind_eq_ok, Except.pure_eq_ok] at printed
  obtain ⟨texts, hts, target, ht, rfl⟩ := printed
  have inside : Woven d whole (Text.join ", " texts) each.flatten :=
    .join (by decide) (woven_expressions ha le_rfl hts)
  exact (((h.text ht).followed (by decide)).append inside).followed (by decide)

/-- Pieces without a sign stand between texts, so the signs are those of the texts. -/
theorem Woven.interleave {quasis : List Node}
    (hq : ∀ quasi ∈ quasis, Woven d whole quasi.form.quasiSource []) {texts : List Text}
    (h : List.Forall₂ (Woven d whole) texts each) (enough : texts.length ≤ quasis.length) :
    Woven d whole (Layout.interleave quasis texts) each.flatten := by
  induction quasis generalizing texts each with
  | nil =>
    obtain rfl := List.length_eq_zero_iff.1 (Nat.le_zero.1 enough)
    cases h
    exact .mark List.not_mem_nil
  | cons quasi quasis ih =>
    obtain ⟨own, rest⟩ := List.forall_mem_cons.1 hq
    cases h with
    | nil => exact own.append (ih rest .nil (Nat.zero_le _))
    | cons first others =>
      have more := ih rest others (Nat.le_of_succ_le_succ enough)
      exact ((((own.followed (by decide)).followed (by decide)).append first).followed
        (by decide)).append more

/-- The text of a template has the signs of its substitutions. -/
theorem Weaves.template {quasis substitutions : List Node}
    (hq : ∀ quasi ∈ quasis, Woven d whole quasi.form.quasiSource [])
    (enough : substitutions.length ≤ quasis.length)
    (h : List.Forall₂ (Weaves d whole layout) substitutions each) :
    Weaves d whole layout (.mk location comments (.template quasis substitutions))
      each.flatten := by
  refine ⟨fun printed => ?_, nofun⟩
  simp only [Layout.expression, Except.bind_eq_ok, Except.pure_eq_ok] at printed
  obtain ⟨texts, hts, rfl⟩ := printed
  have woven := woven_expressions h enough hts
  have inside := Woven.interleave hq woven
    (by rw [woven.length_eq, ← h.length_eq]; exact enough)
  exact (inside.preceded (by decide)).followed (by decide)

/-! ### Objects -/

variable (blank : IsBlankLayout layout)

include blank

theorem mark_margin (level : Int) : CodePoint.scalar '?' ∉ layout.margin level := fun mem => by
  have blank := isBlank_of_mem_margin blank level _ mem
  revert blank
  decide

theorem Woven.commented {text : Text} (h : Woven d whole text points)
    (remarks : ∀ comment ∈ comments, Woven d whole comment.delimited []) (level : Int) :
    Woven d whole (layout.commented level comments text) points := by
  have lines : List.Forall₂ (Woven d whole)
      (comments.map (layout.comment level) ++ [layout.margin level ++ text])
      (comments.map (fun _ => []) ++ [points]) := by
    refine List.rel_append ?_ (.cons (h.preceded (mark_margin blank level)) .nil)
    rw [List.forall₂_map_left_iff, List.forall₂_map_right_iff, List.forall₂_same]
    exact fun comment mem => (remarks comment mem).preceded (mark_margin blank level)
  have flat : (comments.map (fun _ => []) ++ [points]).flatten = points := by simp
  exact flat ▸ Woven.join (by decide) lines

/-- The text of an object has the signs of its entries, each on its line. -/
theorem Weaves.object {entries : List Node}
    (h : ∀ {level lines}, layout.entries level entries = .ok lines →
      List.Forall₂ (Woven d whole) lines each) :
    Weaves d whole layout (.mk location comments (.object entries)) each.flatten := by
  refine ⟨fun printed => ?_, nofun⟩
  simp only [Layout.expression, Except.bind_eq_ok, Except.pure_eq_ok] at printed
  obtain ⟨lines, hl, rfl⟩ := printed
  have woven := h hl
  unfold Layout.object
  split
  · next empty =>
    obtain rfl := List.isEmpty_iff.1 empty
    cases woven
    exact .mark (by decide)
  · exact (((((Woven.join (by decide) woven).preceded (by decide)).followed (by decide)).followed
      (mark_margin blank _)).followed (by decide))

end

/-! ### Entries -/

theorem expression_withComments (level : Int) (node : Node) (comments : List Comment) :
    layout.expression level (node.withComments comments) = layout.expression level node := by
  obtain ⟨location, own, form⟩ := node
  cases form <;> rfl

theorem not_mem_of_isPlainName {name : Text} (h : isPlainName name) :
    CodePoint.scalar '?' ∉ name := by
  obtain ⟨first, rest, -, parts, eq⟩ := Printer.exists_of_isPlainName h
  have own : CodePoint.scalar '?' ∉ first :: rest := fun mem => by
    have part := parts _ mem
    revert part
    decide
  obtain rfl | rfl := eq
  · exact own
  · rw [List.mem_append, not_or]
    exact ⟨own, by decide⟩

section

variable {location : Option Location} {points others : List Point} (blank : IsBlankLayout layout)

include blank

/-- An entry that is no property is printed as an expression. -/
theorem WeavesEntry.of_weaves {node : Node} (h : Weaves d whole layout node points)
    (plain : ∀ key value computed, node.form ≠ .property key value computed) :
    WeavesEntry d whole layout node points := by
  intro comments remarks level others lines printed
  obtain ⟨location, own, form⟩ := node
  rw [Node.withComments, Layout.entries] at printed
  · simp only [Except.bind_eq_ok, Except.pure_eq_ok] at printed
    obtain ⟨text, ht, rest, hr, rfl⟩ := printed
    have bare : layout.expression level (.mk location own form) = .ok text :=
      (expression_withComments level (.mk location own form) comments).symm.trans ht
    exact ⟨_, rest, rfl, hr, (h.text bare).commented blank remarks level⟩
  · rintro _ _ key value computed ⟨⟩
    exact plain key value computed rfl

/-- A property is printed as its name and its value. A name in brackets has signs of its own. -/
theorem weavesEntry_property {key value : Node} {computed : Bool}
    (hk : Weaves d whole layout key points) (hv : Weaves d whole layout value others) :
    WeavesEntry d whole layout (.mk location [] (.property key value computed))
      (points ++ others) := by
  intro comments remarks level rest lines printed
  -- Whatever the key is written as, the rest of the line is the same.
  have line {name : Text} (own : Woven d whole name points)
      (h : (do
        let code ← layout.expression level value
        return layout.commented level comments (name ++ ": " ++ code) ::
          (← layout.entries level rest)) = .ok lines) :
      ∃ line after, lines = line :: after ∧ layout.entries level rest = .ok after ∧
        Woven d whole line (points ++ others) := by
    simp only [Except.bind_eq_ok, Except.pure_eq_ok] at h
    obtain ⟨code, hc, after, hr, rfl⟩ := h
    exact ⟨_, after, rfl, hr,
      ((own.followed (by decide)).append (hv.text hc)).commented blank remarks level⟩
  rw [Node.withComments] at printed
  simp only [Layout.entries] at printed
  split at printed
  · obtain ⟨name, hn, h⟩ := Except.bind_eq_ok.1 printed
    obtain ⟨text, ht, rfl⟩ := Except.map_eq_ok.1 hn
    exact line (((hk.text ht).preceded (by decide)).followed (by decide)) h
  · next name string =>
    split at printed
    · next plain =>
      obtain rfl := hk.string (by rw [string]; rfl)
      exact line (.mark (not_mem_of_isPlainName plain)) printed
    · obtain ⟨name, hn, h⟩ := Except.bind_eq_ok.1 printed
      exact line (hk.text hn) h
  · obtain ⟨name, hn, h⟩ := Except.bind_eq_ok.1 printed
    exact line (hk.text hn) h

end

/-- The items of an object: comments, and entries with the signs at some positions. -/
inductive ItemsWeave (d : Document) (whole : Tree) (layout : Layout) :
    List Item → List (List Point) → Prop
  | nil : ItemsWeave d whole layout [] []
  | comment {comment : Comment} {items : List Item} {each : List (List Point)}
    (own : Woven d whole comment.delimited []) (rest : ItemsWeave d whole layout items each) :
    ItemsWeave d whole layout (.comment comment :: items) each
  | member {node : Node} {points : List Point} {items : List Item} {each : List (List Point)}
    (own : WeavesEntry d whole layout node points) (rest : ItemsWeave d whole layout items each) :
    ItemsWeave d whole layout (.member node :: items) (points :: each)

/-- The lines of an object have the signs of its entries, whatever comments stand between them. -/
theorem ItemsWeave.entries {items : List Item} {each : List (List Point)}
    (h : ItemsWeave d whole layout items each) {comments : List Comment}
    (remarks : ∀ comment ∈ comments, Woven d whole comment.delimited []) {level : Int}
    {lines : List Text} (printed : layout.entries level (Item.entries comments items) = .ok lines) :
    List.Forall₂ (Woven d whole) lines each := by
  induction h generalizing comments lines with
  | nil =>
    obtain rfl := Except.ok.inj printed
    exact .nil
  | comment own _ ih =>
    exact ih (List.forall_mem_append.2 ⟨remarks, List.forall_mem_singleton.2 own⟩) printed
  | member own _ ih =>
    obtain ⟨line, rest, rfl, more, woven⟩ := own comments remarks printed
    exact .cons woven (ih (List.forall_mem_nil _) more)

/-! ## Texts of trees -/

section

variable {tree : Tree} (within : tree.Within whole)

include within

/-- What is copied has the signs of its text, and what has no text is never printed. -/
theorem Weaves.of_aside {node : Node} (h : d.IsAside tree node) :
    Weaves d whole layout node tree.signs := by
  cases h with
  | @mute form mute =>
    cases form with
    | identifier | string | number | boolean | null | template | property | object | member | call
    | assignment | raw => cases mute
    | _ => exact ⟨nofun, nofun⟩
  | copied =>
    refine ⟨fun printed => ?_, nofun⟩
    obtain rfl := Except.ok.inj printed
    exact .copy within

/-- A construct whose text is copied. -/
theorem weaves_text {form : Form Node}
    (own : ∀ level, layout.expression level (d.place tree form) = .ok (d.text tree))
    (other : (d.place tree form).stringValue?.isSome → tree.signs = []) :
    Weaves d whole layout (d.place tree form) tree.signs := by
  refine ⟨fun {level _} printed => ?_, other⟩
  obtain rfl := Except.ok.inj ((own level).symm.trans printed)
  exact .copy within

end

namespace Document

section

variable {read : Tree → Except EscapeError Node} {account : Tree → Account} {tree : Tree}
  (blank : IsBlankLayout layout)
  (reads : ∀ {tree}, Tokenized d tree → tree.Within whole →
    (read tree).Ensures (Weaves d whole layout · (account tree).kept))
  (h : Tokenized d tree) (within : tree.Within whole)

include within in
theorem weaves_raw :
    (d.raw read tree).Ensures (Weaves d whole layout · (Account.copied tree).kept) :=
  aside_raw.imp fun _ => .of_aside within

include reads h within

theorem weaves_firstOperand : (d.firstOperand read tree).Ensures
    (Weaves d whole layout · (Account.firstOperand account tree).kept) := by
  unfold firstOperand Account.firstOperand
  cases eq : tree.operands with
  | nil => exact weaves_raw within
  | cons operand rest =>
    have mem : operand ∈ tree.operands := eq ▸ List.mem_cons_self
    exact reads (h.operand mem) (within.child (Tree.mem_of_mem_operands mem))

theorem weaves_key : (d.key read tree).Ensures
    (Weaves d whole layout · (Account.key account tree).kept) := by
  unfold key Account.key
  split
  · exact weaves_firstOperand reads h within
  · exact reads h within

/-- A call is printed with the signs that are kept: those of what is called and of the arguments. -/
theorem weaves_call : (d.call read tree).Ensures
    (Weaves d whole layout · (Account.call account tree).kept) := by
  unfold call Account.call
  cases hc : tree.child? "function" with
  | none => exact weaves_raw within
  | some callee =>
    cases ha : tree.child? "arguments" with
    | none => exact weaves_raw within
    | some arguments =>
      dsimp only
      split
      · refine (reads (h.child hc) (within.child (Tree.mem_of_child? hc))).bind fun _ callee => ?_
        have each := Except.Ensures.forall₂_mapM fun argument mem =>
          reads ((h.child ha).operand mem)
            ((within.child (Tree.mem_of_child? ha)).child (Tree.mem_of_mem_operands mem))
        refine each.bind fun _ arguments => .pure ?_
        rw [Account.kept_leaving, Account.kept_join_cons, Account.kept_join_map]
        exact callee.call arguments
      · exact weaves_raw within

/-- An access is copied if it has a sign of its own, and else put together of its two parts. -/
theorem weaves_access {part : String} {computed : Bool} : (d.access read part computed tree).Ensures
    (Weaves d whole layout · (Account.access account part tree).kept) := by
  unfold access Account.access
  cases ht : tree.child? "object" with
  | none => exact weaves_raw within
  | some target =>
    cases hn : tree.child? part with
    | none => exact weaves_raw within
    | some name =>
      dsimp only
      split
      · exact weaves_raw within
      · refine (reads (h.child ht) (within.child (Tree.mem_of_child? ht))).bind fun _ target => ?_
        refine (reads (h.child hn) (within.child (Tree.mem_of_child? hn))).bind fun _ name => ?_
        refine .pure ?_
        rw [Account.kept_leaving, Account.kept_join_pair]
        exact target.member name

theorem weaves_assignment : (d.assignment read tree).Ensures
    (Weaves d whole layout · (Account.assignment account tree).kept) := by
  unfold assignment Account.assignment
  cases hl : tree.child? "left" with
  | none => exact weaves_raw within
  | some left =>
    cases hr : tree.child? "right" with
    | none => exact weaves_raw within
    | some right =>
      refine (reads (h.child hl) (within.child (Tree.mem_of_child? hl))).bind fun _ left => ?_
      refine (reads (h.child hr) (within.child (Tree.mem_of_child? hr))).bind fun _ right =>
        .pure ?_
      rw [Account.kept_leaving, Account.kept_join_pair]
      exact left.assignment right

/-- A template is printed with its pieces as they stand and the first operand of each
substitution. -/
theorem weaves_template (kind : tree.kind = "template_string") : (d.template read tree).Ensures
    (Weaves d whole layout ·
      (Account.join ((tree.namedChildren.filter (·.kind = "template_substitution")).map
        (Account.firstOperand account))).kept) := by
  intro node done
  obtain ⟨substitutions, each, same⟩ := Except.bind_eq_ok.1 done
  obtain rfl := Except.pure_eq_ok.1 same
  have woven := Except.Ensures.forall₂_mapM (fun substitution mem => by
    have mem := (List.mem_filter.1 mem).1
    exact weaves_firstOperand reads (h.namedChild mem) (within.child (List.mem_filter.1 mem).1))
    substitutions each
  rw [Account.kept_join_map]
  refine Weaves.template (fun piece mem => .piece within kind mem) ?_ woven
  rw [Except.length_of_mapM each, length_quasis]
  exact Nat.le_succ _

include blank

/-- An entry of an object is printed with the signs that are kept of it. -/
theorem weaves_entry : (d.entry read tree).Ensures
    (WeavesEntry d whole layout · (Account.entry account tree).kept) := by
  have copied : (d.raw read tree).Ensures
      (WeavesEntry d whole layout · (Account.copied tree).kept) := by
    intro node done
    have woven : Weaves d whole layout node tree.signs := weaves_raw within node done
    obtain ⟨operands, -, same⟩ := Except.bind_eq_ok.1 done
    obtain rfl := Except.pure_eq_ok.1 same
    exact .of_weaves blank woven nofun
  unfold entry Account.entry
  split
  · next kind =>
    rw [if_pos kind]
    cases hn : tree.child? "key" with
    | none => exact copied
    | some name =>
      cases hv : tree.child? "value" with
      | none => exact copied
      | some value =>
        have keys := weaves_key reads (h.child hn) (within.child (Tree.mem_of_child? hn))
        have values := reads (h.child hv) (within.child (Tree.mem_of_child? hv))
        refine keys.bind fun _ key => values.bind fun _ value => .pure ?_
        rw [Account.kept_leaving, Account.kept_join_pair]
        exact weavesEntry_property blank key value
  · next kind =>
    -- The name is printed twice, and there is no sign in it.
    have none : tree.signs = [] := h.signs_of_leaf (.inr (by rw [kind]; decide))
    have name : Weaves d whole layout (Node.identifier (d.text tree)) tree.signs := by
      refine ⟨fun printed => ?_, nofun⟩
      obtain rfl := Except.ok.inj printed
      exact .copy within
    rw [none] at name
    rw [if_neg (by rw [kind]; decide), Account.copied, none]
    exact .pure (weavesEntry_property blank name name)
  · next other _ =>
    rw [if_neg other]
    exact copied

omit h within in
/-- The items of an object, comments among them, have the signs that are kept of its entries. -/
theorem weaves_items {parts : List Tree} (own : ∀ part ∈ parts, Tokenized d part)
    (inside : ∀ part ∈ parts, part.Within whole) : (parts.mapM (d.entryItem read)).Ensures
      (ItemsWeave d whole layout · ((parts.filter (!·.isComment)).map fun part =>
        (Account.entry account part).kept)) := by
  induction parts with
  | nil => exact .pure .nil
  | cons part parts ih =>
    obtain ⟨hp, own⟩ := List.forall_mem_cons.1 own
    obtain ⟨below, inside⟩ := List.forall_mem_cons.1 inside
    rw [List.mapM_cons]
    by_cases comment : part.isComment
    · have item : (d.entryItem read part).Ensures (· = .comment (d.comment part)) := by
        rw [entryItem, if_pos comment]
        exact .pure rfl
      rw [List.filter_cons_of_neg (by simp [comment])]
      refine item.bind fun _ same => (ih own inside).bind fun _ rest => .pure ?_
      exact same ▸ .comment (.remark below comment) rest
    · have item : (d.entryItem read part).Ensures fun item => ∃ node, item = .member node ∧
          WeavesEntry d whole layout node (Account.entry account part).kept := by
        rw [entryItem, if_neg comment]
        exact (weaves_entry blank reads hp below).bind fun node woven => .pure ⟨node, rfl, woven⟩
      rw [List.filter_cons_of_pos (by simp [comment]), List.map_cons]
      refine item.bind fun _ ⟨node, same, woven⟩ => (ih own inside).bind fun _ rest => .pure ?_
      exact same ▸ .member woven rest

theorem weaves_object : (d.object read tree).Ensures
    (Weaves d whole layout · (Account.join (tree.operands.map (Account.entry account))).kept) := by
  refine (weaves_items blank reads (fun part mem => h.namedChild mem) fun part mem =>
    within.child (List.mem_filter.1 mem).1).bind fun items woven => .pure ?_
  rw [Account.kept_join_map]
  exact .object blank (woven.entries (List.forall_mem_nil _))

omit blank reads in
/-- A literal, a name, or a construct that is copied as it stands. -/
theorem weaves_copied (other : tree.kind ∉ Account.rebuiltKinds) :
    (d.construct read tree).Ensures (Weaves d whole layout · tree.signs) := by
  have leaf (kind : tree.kind ∈ leafKinds) : tree.signs = [] := h.signs_of_leaf (.inr kind)
  have word (kind : tree.kind ∈ leafKinds) {form : Form Node} {text : Text}
      (plain : CodePoint.scalar '?' ∉ text)
      (own : ∀ level, layout.expression level (d.place tree form) = .ok text) :
      Weaves d whole layout (d.place tree form) tree.signs := by
    rw [leaf kind]
    refine ⟨fun {level _} printed => ?_, fun _ => rfl⟩
    obtain rfl := Except.ok.inj ((own level).symm.trans printed)
    exact .mark plain
  have string (kind : tree.kind = "string") : (d.string tree).Ensures
      (Weaves d whole layout · tree.signs) :=
    .bind_of_forall fun _ => .pure (weaves_text within (fun _ => rfl) fun _ =>
      leaf (by rw [kind]; decide))
  have aside {result : Except EscapeError Node} (own : result.Ensures (d.IsAside tree)) :
      result.Ensures (Weaves d whole layout · tree.signs) := own.imp fun _ => .of_aside within
  unfold construct
  split
  all_goals first
    | exact .pure (weaves_text within (fun _ => rfl) nofun)
    | next kind => exact absurd (by rw [kind]; decide) other
    | next kind => exact string kind
    | next kind => exact .pure (word (by rw [kind]; decide) (by decide) fun _ => rfl)
    | exact aside aside_raw
    | exact aside aside_importStatement
    | exact aside aside_exportStatement
    | exact aside aside_classDeclaration
    | exact aside aside_method
    | exact aside aside_classField
    | exact aside aside_decorator
    | exact aside aside_block
    | exact aside aside_returnStatement
    | exact aside aside_expressionStatement
    | exact aside aside_variableDeclaration
    | exact aside aside_declarator

/-- Whatever a construct is read as is printed with the signs that are kept of it. -/
theorem weaves_construct : (d.construct read tree).Ensures
    (Weaves d whole layout · (Account.construct account tree).kept) := by
  by_cases rebuilt : tree.kind ∈ Account.rebuiltKinds
  · simp only [Account.rebuiltKinds, List.mem_cons, List.not_mem_nil, or_false] at rebuilt
    obtain kind | kind | kind | kind | kind | kind := rebuilt
    all_goals simp only [Account.construct, construct, kind]
    · exact weaves_call reads h within
    · exact weaves_access reads h within
    · exact weaves_access reads h within
    · exact weaves_assignment reads h within
    · exact weaves_object blank reads h within
    · exact weaves_template reads h within kind
  · rw [Account.construct_of_not_mem rebuilt]
    exact weaves_copied h within rebuilt

end

/-- Whatever is read from a tree is woven of its text, with the signs that are kept. -/
theorem weaves_readWithin (blank : IsBlankLayout layout) (levels : Nat) {tree : Tree}
    (h : Tokenized d tree) (within : tree.Within whole) : (d.readWithin levels tree).Ensures
      (Weaves d whole layout · (Account.within levels tree).kept) := by
  induction levels generalizing tree with
  | zero => exact .pure (.of_aside within .copied)
  | succ levels ih => exact weaves_construct blank ih h within

/-- What is copied is printed as it stands. -/
theorem text_of_raw {read : Tree → Except EscapeError Node} {tree : Tree} {node : Node}
    (copied : d.raw read tree = .ok node) {level : Int} {text : Text}
    (printed : layout.expression level node = .ok text) : text = d.text tree := by
  obtain ⟨operands, -, same⟩ := Except.bind_eq_ok.1 copied
  obtain rfl := Except.pure_eq_ok.1 same
  exact (Except.ok.inj printed).symm

theorem access_of_isOptional {read : Tree → Except EscapeError Node} {part : String}
    {computed : Bool} {tree : Tree} (optional : isOptional tree) :
    d.access read part computed tree = d.raw read tree := by
  unfold access
  split
  · rw [if_pos optional]
  · rfl

/-- An access with a sign of its own is copied as it stands. -/
theorem text_of_isOptional {levels : Nat} {tree : Tree} (optional : isOptional tree)
    (kind : tree.kind = "member_expression" ∨ tree.kind = "subscript_expression") {node : Node}
    (read : d.readWithin levels tree = .ok node) {level : Int} {text : Text}
    (printed : layout.expression level node = .ok text) : text = d.text tree := by
  cases levels with
  | zero =>
    obtain rfl := Except.ok.inj read
    exact (Except.ok.inj printed).symm
  | succ levels =>
    obtain kind | kind := kind
    all_goals
      simp only [readWithin, construct, kind, access_of_isOptional optional] at read
      exact text_of_raw read printed

/-- The sign by itself is copied. -/
theorem weaves_sign {tree : Tree} (within : tree.Within whole) (kind : tree.kind = signKind)
    (levels : Nat) : (d.readWithin levels tree).Ensures
      (Weaves d whole layout · (Account.within levels tree).kept) := by
  rw [Account.within_of_sign kind]
  cases levels with
  | zero => exact .pure (.of_aside within .copied)
  | succ levels =>
    simp only [readWithin, construct, kind, signKind]
    exact weaves_raw within

end Document

/-- **The signs of an expression in the text that is printed for it.** Whatever part of a source
text is read and printed: the text is woven of parts that are copied, and the signs that it has are
those that `Account` says are kept, in the order of the source. All others are lost. A call that is
put together anew loses its own sign; an access with a sign is copied as it stands; and if no call
in the part has a sign, nor type arguments, the text has all signs of the part. -/
theorem signs_of_parse {source : List Char} {root tree : Tree} (parsed : parse source = some root)
    (within : tree.Within root) {levels : Nat} {node : Node}
    (read : (Document.ofChars source).readWithin levels tree = .ok node) {layout : Layout}
    (blank : IsBlankLayout layout) {level : Int} {text : Text}
    (printed : layout.expression level node = .ok text) :
    (∀ point ∈ tree.signs, ∃ sign : Tree, sign.Within tree ∧ sign.start = point ∧
      (Document.ofChars source).text sign = Text.ofString "?.") ∧
    Woven (.ofChars source) tree text (Account.within levels tree).kept ∧
    (Account.within levels tree).kept.Sublist tree.signs ∧
    ((Account.within levels tree).kept ++ (Account.within levels tree).lost).Perm tree.signs ∧
    (tree.IsPlain → (Account.within levels tree).kept = tree.signs) ∧
    (tree.kind = "member_expression" ∨ tree.kind = "subscript_expression" →
      Document.isOptional tree → text = (Document.ofChars source).text tree) ∧
    (levels ≠ 0 → tree.kind = "call_expression" → ∀ callee arguments,
      tree.child? "function" = some callee → tree.child? "arguments" = some arguments →
      arguments.kind = "arguments" → ∀ sign ∈ tree.children, sign.kind = "?." →
        sign.start ∈ (Account.within levels tree).lost) := by
  have tokens := tokenized_of_parse parsed
  have weaves : Weaves (.ofChars source) tree layout node (Account.within levels tree).kept := by
    by_cases sign : tree.kind = signKind
    · exact Document.weaves_sign .whole sign levels node read
    · exact Document.weaves_readWithin blank levels (tokens.within within sign) .whole node read
  have covers : Covers (Account.within levels tree) tree.signs := by
    by_cases sign : tree.kind = signKind
    · rw [Account.within_of_sign sign]
      exact .copied
    · exact covers_within levels (tokens.within within sign)
  refine ⟨fun point mem => ?_, weaves.text printed, covers.order, covers.all,
    fun plain => covers.kept_eq_iff.2 (lost_within levels plain),
    fun kind optional => Document.text_of_isOptional optional kind read printed,
    fun deep kind callee arguments hc ha list sign mem own => ?_⟩
  · obtain ⟨sign, below, kind, start⟩ := Tree.exists_of_mem_signs tree mem
    exact ⟨sign, below, start, tokens.text_of_sign (below.trans within) kind⟩
  · obtain ⟨levels, rfl⟩ := Nat.exists_eq_succ_of_ne_zero deep
    have other : tree.kind ≠ signKind := by
      rw [kind]
      decide
    exact mem_lost_of_call (tokens.within within other) kind hc ha list mem own

/-- A template with an access and a call in its substitution, each with a sign. -/
def chainText : List Char := "`$\x7ba?.b?.(c)\x7d`".toList

/-- The access keeps its sign, and the call loses it. -/
theorem signs_of_chain :
    ∃ root tree node, parse chainText = some root ∧ tree.Within root ∧
      (Document.ofChars chainText).readWithin 4 tree = .ok node ∧
      ({} : Layout).expression 0 node = .ok "`$\x7ba?.b(c)\x7d`" ∧
      tree.signs = [⟨4, 0, 4⟩, ⟨7, 0, 7⟩] ∧
      (Account.within 4 tree).lost = [⟨7, 0, 7⟩] ∧
      Woven (.ofChars chainText) tree "`$\x7ba?.b(c)\x7d`" [⟨4, 0, 4⟩] := by
  have success : (parse chainText).any fun root => root.children.any fun statement =>
      statement.children.any fun tree =>
        tree.signs = [⟨4, 0, 4⟩, ⟨7, 0, 7⟩] && (Account.within 4 tree).kept = [⟨4, 0, 4⟩] &&
          (Account.within 4 tree).lost = [⟨7, 0, 7⟩] &&
          ((Document.ofChars chainText).readWithin 4 tree).toOption.any fun node =>
            (({} : Layout).expression 0 node).toOption = some ("`$\x7ba?.b(c)\x7d`" : Text) := by
    decide +kernel
  simp only [Option.any_eq_true, List.any_eq_true, Bool.and_eq_true, decide_eq_true_eq,
    Except.toOption_eq_some] at success
  obtain ⟨root, parsed, statement, first, tree, second, ⟨⟨signs, kept⟩, lost⟩, node, read,
    printed⟩ := success
  have within : tree.Within root := .part first (.part second .whole)
  have blank : IsBlankLayout {} := by
    change ∀ c ∈ ("  " : Text), Script.isBlank c
    decide
  obtain ⟨-, woven, -⟩ := signs_of_parse parsed within read blank printed
  rw [kept] at woven
  exact ⟨root, tree, node, parsed, within, read, printed, signs, lost, woven⟩

end Source

end ElementWrapper
