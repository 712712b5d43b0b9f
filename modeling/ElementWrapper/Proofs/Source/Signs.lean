import ElementWrapper.Proofs.Source.Parsing

/-!
What becomes of the signs `?.` of an expression when it is read. A construct that is copied as it
stands keeps them all, and so does an access with a sign of its own. A call is put together anew
from its target and its arguments whether it has a sign or not, and the sign is lost, as are the
signs in its type arguments. `Account` follows the reading of a tree construct by construct, and
`covers_within` says that it accounts for every sign and keeps their order.
-/

namespace ElementWrapper.Source

namespace Tree

mutual

/-- Where the signs in a tree stand, in order. -/
def signs : Tree → List Point
  | node kind _ _ _ start _ children => if kind = signKind then [start] else signsOf children

/-- Where the signs in the trees of a list stand. -/
def signsOf : List Tree → List Point
  | [] => []
  | tree :: rest => tree.signs ++ signsOf rest

end

theorem signsOf_eq (trees : List Tree) : signsOf trees = trees.flatMap signs := by
  induction trees with
  | nil => rfl
  | cons tree rest ih => rw [signsOf, ih, List.flatMap_cons]

mutual

/-- A position of a sign is that of a sign in the tree. -/
theorem exists_of_mem_signs : ∀ (tree : Tree) {point : Point}, point ∈ tree.signs →
    ∃ sign : Tree, sign.Within tree ∧ sign.kind = signKind ∧ sign.start = point
  | node kind named missing field start stop children, point, mem => by
    rw [signs] at mem
    split at mem
    · next same =>
      obtain rfl := List.mem_singleton.1 mem
      exact ⟨_, .whole, same, rfl⟩
    · obtain ⟨part, there, sign, within, own⟩ := exists_of_mem_signsOf children mem
      exact ⟨sign, .part there within, own⟩

theorem exists_of_mem_signsOf : ∀ (trees : List Tree) {point : Point}, point ∈ signsOf trees →
    ∃ part ∈ trees, ∃ sign : Tree, sign.Within part ∧ sign.kind = signKind ∧ sign.start = point
  | tree :: rest, point, mem => by
    rw [signsOf] at mem
    obtain own | later := List.mem_append.1 mem
    · exact ⟨tree, List.mem_cons_self, exists_of_mem_signs tree own⟩
    · obtain ⟨part, there, sign⟩ := exists_of_mem_signsOf rest later
      exact ⟨part, List.mem_cons_of_mem _ there, sign⟩

end

theorem signs_of_ne {tree : Tree} (other : tree.kind ≠ signKind) :
    tree.signs = tree.children.flatMap signs := by
  obtain ⟨kind, named, missing, field, start, stop, children⟩ := tree
  have other : kind ≠ signKind := other
  rw [signs, if_neg other, signsOf_eq, Tree.children]

/-- Whether the tree is left out of a construct that is put together anew, with signs in it. -/
def isLeftOut (tree : Tree) : Bool :=
  !tree.isSecond && (tree.kind = signKind || tree.kind = "type_arguments")

/-- The signs that are left out when the construct is put together anew from its parts. -/
def leftOut (tree : Tree) : List Point := ((tree.children.drop 1).filter isLeftOut).flatMap signs

theorem Within.trans {tree part whole : Tree} (h : part.Within tree) (within : tree.Within whole) :
    part.Within whole := by
  induction within with
  | whole => exact h
  | part mem _ ih => exact .part mem ih

theorem Within.child {tree part whole : Tree} (h : tree.Within whole) (mem : part ∈ tree.children) :
    part.Within whole := trans (.part mem .whole) h

theorem mem_of_child? {tree part : Tree} {name : String} (eq : tree.child? name = some part) :
    part ∈ tree.children := List.mem_of_find?_eq_some eq

theorem mem_of_mem_operands {tree part : Tree} (mem : part ∈ tree.operands) :
    part ∈ tree.children := (List.mem_filter.1 (List.mem_filter.1 mem).1).1

end Tree

theorem Tokenized.text_of_sign {d : Document} {root sign : Tree} (h : Tokenized d root)
    (within : sign.Within root) (kind : sign.kind = signKind) :
    d.text sign = Text.ofString signKind := by
  induction within with
  | whole => exact absurd kind h.fits.shape.kind
  | @part child _ mem below ih =>
    by_cases same : child.kind = signKind
    · have own := h.sign mem same
      rw [below.eq_of_children own.children]
      exact own.text
    · exact ih (h.of_mem mem same)

/-! ## Accounts -/

/-- What becomes of signs: those that stand in what is copied, and those that are lost. -/
structure Account where
  kept : List Point
  lost : List Point

namespace Account

/-- A construct that is copied as it stands. -/
def copied (tree : Tree) : Account := ⟨tree.signs, []⟩

/-- Parts one after the other. -/
def join (parts : List Account) : Account := ⟨parts.flatMap kept, parts.flatMap lost⟩

/-- The parts of a construct without what is left out of it. -/
def leaving (tree : Tree) (parts : Account) : Account :=
  { parts with lost := parts.lost ++ tree.leftOut }

theorem kept_leaving (tree : Tree) (parts : Account) : (leaving tree parts).kept = parts.kept := rfl

theorem kept_join_cons (first : Account) (rest : List Account) :
    (join (first :: rest)).kept = first.kept ++ (join rest).kept := rfl

theorem kept_join_pair (first second : Account) :
    (join [first, second]).kept = first.kept ++ second.kept := by
  rw [kept_join_cons, kept_join_cons]
  exact congrArg (first.kept ++ ·) (List.append_nil _)

theorem kept_join_map (trees : List Tree) (f : Tree → Account) :
    (join (trees.map f)).kept = (trees.map fun tree => (f tree).kept).flatten := by
  rw [join, List.flatMap_map, List.flatMap_def]

section

variable (account : Tree → Account)

/-- The first operand, or else the construct itself. -/
def firstOperand (tree : Tree) : Account :=
  match tree.operands with
  | operand :: _ => account operand
  | [] => copied tree

/-- The name of an entry. -/
def key (tree : Tree) : Account :=
  if tree.kind = "computed_property_name" then firstOperand account tree else account tree

/-- A call, whether it has a sign or not. -/
def call (tree : Tree) : Account :=
  match tree.child? "function", tree.child? "arguments" with
  | some callee, some arguments =>
    if arguments.kind = "arguments" then
      leaving tree (join (account callee :: arguments.operands.map account))
    else copied tree
  | _, _ => copied tree

/-- An access, which is copied if it has a sign. -/
def access (part : String) (tree : Tree) : Account :=
  match tree.child? "object", tree.child? part with
  | some target, some name =>
    if Document.isOptional tree then copied tree
    else leaving tree (join [account target, account name])
  | _, _ => copied tree

/-- An assignment. -/
def assignment (tree : Tree) : Account :=
  match tree.child? "left", tree.child? "right" with
  | some left, some right => leaving tree (join [account left, account right])
  | _, _ => copied tree

/-- An entry of an object. -/
def entry (tree : Tree) : Account :=
  if tree.kind = "pair" then
    match tree.child? "key", tree.child? "value" with
    | some name, some value => leaving tree (join [key account name, account value])
    | _, _ => copied tree
  else copied tree

/-- The kinds of constructs that are put together anew. -/
def rebuiltKinds : List String :=
  ["call_expression", "member_expression", "subscript_expression", "assignment_expression",
    "object", "template_string"]

/-- A construct, given what becomes of the signs in the trees below it. -/
def construct (tree : Tree) : Account :=
  match tree.kind with
  | "call_expression" => call account tree
  | "member_expression" => access account "property" tree
  | "subscript_expression" => access account "index" tree
  | "assignment_expression" => assignment account tree
  | "object" => join (tree.operands.map (entry account))
  | "template_string" =>
    join ((tree.namedChildren.filter (·.kind = "template_substitution")).map (firstOperand account))
  | _ => copied tree

end

theorem construct_of_not_mem {account : Tree → Account} {tree : Tree}
    (other : tree.kind ∉ rebuiltKinds) : construct account tree = copied tree := by
  unfold construct
  split
  all_goals first
    | rfl
    | next kind => exact absurd (by rw [kind]; decide) other

/-- What becomes of the signs in a tree that is read within a bound on its levels. -/
def within : Nat → Tree → Account
  | 0, tree => copied tree
  | levels + 1, tree => construct (within levels) tree

/-- The sign itself is copied. -/
theorem within_of_sign {tree : Tree} (kind : tree.kind = signKind) {levels : Nat} :
    within levels tree = copied tree := by
  cases levels with
  | zero => rfl
  | succ levels => exact construct_of_not_mem (by rw [kind]; decide)

end Account

/-- All signs are accounted for, and those that are kept stay in their order. -/
structure Covers (account : Account) (signs : List Point) : Prop where
  order : account.kept.Sublist signs
  all : (account.kept ++ account.lost).Perm signs

namespace Covers

variable {account rest : Account} {first second signs : List Point} {tree : Tree}

theorem copied : Covers (.copied tree) tree.signs :=
  ⟨.refl _, by rw [Account.copied, List.append_nil]⟩

theorem nil : Covers (.join []) [] := ⟨.refl _, .refl _⟩

theorem cons {parts : List Account} (h : Covers account first) (hr : Covers (.join parts) second) :
    Covers (.join (account :: parts)) (first ++ second) := by
  refine ⟨h.order.append hr.order, ?_⟩
  have own := List.perm_iff_count.1 h.all
  have others := List.perm_iff_count.1 hr.all
  refine List.perm_iff_count.2 fun point => ?_
  have own := own point
  have others := others point
  simp only [Account.join, List.flatMap_cons, List.count_append] at own others ⊢
  omega

theorem pair (h : Covers account first) (hr : Covers rest second) :
    Covers (.join [account, rest]) (first ++ second) := by
  have both := h.cons (hr.cons nil)
  rwa [List.append_nil] at both

theorem map {trees : List Tree} {f : Tree → Account}
    (h : ∀ tree ∈ trees, Covers (f tree) tree.signs) :
    Covers (.join (trees.map f)) (trees.flatMap Tree.signs) := by
  induction trees with
  | nil => exact nil
  | cons tree trees ih =>
    obtain ⟨own, rest⟩ := List.forall_mem_cons.1 h
    exact own.cons (ih rest)

theorem leaving (h : Covers account first) (order : first.Sublist signs)
    (all : (first ++ tree.leftOut).Perm signs) : Covers (account.leaving tree) signs := by
  refine ⟨h.order.trans order, .trans ?_ all⟩
  rw [Account.leaving, ← List.append_assoc]
  exact h.all.append_right _

/-- The signs stay exactly if none of them is lost. -/
theorem kept_eq_iff (h : Covers account signs) : account.kept = signs ↔ account.lost = [] := by
  have length := h.all.length_eq
  rw [List.length_append] at length
  constructor
  · intro same
    rw [same] at length
    exact List.length_eq_zero_iff.1 (by omega)
  · intro none
    refine h.order.eq_of_length ?_
    rw [none] at length
    exact length

end Covers

/-! ## The signs of a construct and of its parts -/

section

variable {d : Document} {tree part : Tree}

theorem Tokenized.ne_sign (h : Tokenized d tree) : tree.kind ≠ signKind := h.fits.shape.kind

/-- A single token has no sign in it. -/
theorem Tokenized.signs_of_leaf (h : Tokenized d tree)
    (token : tree.named = false ∨ tree.kind ∈ leafKinds) : tree.signs = [] := by
  rw [Tree.signs_of_ne h.ne_sign, h.fits.shape.leaf token, List.flatMap_nil]

/-- A punctuation or a comment has no sign in it. -/
theorem Tokenized.signs_of_not_operand (h : Tokenized d tree) (other : tree.isOperand = false) :
    tree.signs = [] := by
  rw [Tree.isOperand, Bool.and_eq_false_iff, Bool.not_eq_false'] at other
  refine h.signs_of_leaf (other.imp_right fun comment => ?_)
  rw [of_decide_eq_true comment]
  decide

/-- Trees without a sign can be left out. -/
theorem flatMap_signs_filter {trees : List Tree} {p : Tree → Bool}
    (h : ∀ tree ∈ trees, p tree = false → tree.signs = []) :
    (trees.filter p).flatMap Tree.signs = trees.flatMap Tree.signs := by
  induction trees with
  | nil => rfl
  | cons tree trees ih =>
    obtain ⟨own, rest⟩ := List.forall_mem_cons.1 h
    rw [List.flatMap_cons, ← ih rest]
    cases eq : p tree with
    | true => rw [List.filter_cons_of_pos eq, List.flatMap_cons]
    | false =>
      rw [List.filter_cons_of_neg (by rw [eq]; exact Bool.false_ne_true), own eq, List.nil_append]

/-- The signs of a construct stand in its operands, unless it has one itself. -/
theorem Tokenized.signs_eq_operands (h : Tokenized d tree) (plain : tree.kind ∉ signedKinds) :
    tree.signs = tree.operands.flatMap Tree.signs := by
  rw [Tree.signs_of_ne h.ne_sign, Tree.operands_eq]
  refine (flatMap_signs_filter fun part mem other => ?_).symm
  have part := h.of_mem mem fun kind => plain (h.fits.shape.outline.sign part mem kind).2
  exact part.signs_of_not_operand other

/-- The two parts of a joined construct, and what stands beside them. -/
theorem Tokenized.joined {joint : Joint} (h : Tokenized d tree)
    (table : joint? tree.kind = some joint) (apart : joint.first ≠ joint.second)
    (second : joint.second ∈ secondNames) {head name : Tree}
    (hh : tree.child? joint.first = some head) (hn : tree.child? joint.second = some name) :
    ∃ before after, tree.children = head :: (before ++ name :: after) ∧
      name.isSecond ∧ ∀ part ∈ before ++ after, part.IsBeside joint.beside := by
  have field {part : Tree} {role : String} (eq : tree.child? role = some part) :
      part.field = some role := by simpa using List.find?_some eq
  have mem := List.mem_of_find?_eq_some hn
  obtain ⟨first, rest, eq⟩ := List.exists_cons_of_ne_nil (List.ne_nil_of_mem mem)
  obtain ⟨leads, tail⟩ := h.fits.shape.outline.joint joint table first rest eq
  have same : first = head := by
    rw [Tree.child?, eq, List.find?_cons_of_pos (by simpa using leads)] at hh
    exact Option.some.inj hh
  subst same
  have later : name ∈ rest := by
    rw [eq] at mem
    refine (List.mem_cons.1 mem).resolve_left ?_
    rintro rfl
    exact apart (Option.some.inj (leads.symm.trans (field hn)))
  have isSecond : name.isSecond := by
    rw [Tree.isSecond, field hn]
    exact List.contains_iff_mem.2 second
  obtain ⟨before, after, rfl, beside⟩ := tail.split later fun beside => by
    rw [beside.other] at isSecond
    cases isSecond
  exact ⟨before, after, eq, isSecond, beside⟩

/-- What is put together anew from two parts has their signs, and those that are left out. -/
theorem Tokenized.covers_joined {joint : Joint} (h : Tokenized d tree)
    (table : joint? tree.kind = some joint) (apart : joint.first ≠ joint.second)
    (second : joint.second ∈ secondNames) {head name : Tree}
    (hh : tree.child? joint.first = some head) (hn : tree.child? joint.second = some name)
    (beside : ∀ part ∈ tree.children, part.kind ∈ joint.beside → part.kind = "type_arguments")
    {account : Account} (covers : Covers account (head.signs ++ name.signs)) :
    Covers (account.leaving tree) tree.signs := by
  obtain ⟨before, after, eq, isSecond, others⟩ := h.joined table apart second hh hn
  have aside {parts : List Tree} (sub : parts ⊆ before ++ after) :
      (parts.filter Tree.isLeftOut).flatMap Tree.signs = parts.flatMap Tree.signs := by
    refine flatMap_signs_filter fun part mem stays => ?_
    have own := others part (sub mem)
    have mem : part ∈ tree.children := by
      have sub := sub mem
      rw [eq]
      simp only [List.mem_append, List.mem_cons] at sub ⊢
      tauto
    simp only [Tree.isLeftOut, own.other, Bool.not_false, Bool.true_and, Bool.or_eq_false_iff,
      decide_eq_false_iff_not] at stays
    refine (h.of_mem mem stays.1).signs_of_not_operand (Bool.eq_false_iff.2 fun operand => ?_)
    exact stays.2 (beside part mem (own.kind operand))
  have left : tree.leftOut = before.flatMap Tree.signs ++ after.flatMap Tree.signs := by
    rw [Tree.leftOut, eq, List.drop_one, List.tail_cons, List.filter_append,
      List.filter_cons_of_neg, List.flatMap_append, aside (List.subset_append_left ..),
      aside (List.subset_append_right ..)]
    simp [Tree.isLeftOut, isSecond]
  have whole : tree.signs = head.signs ++ (before.flatMap Tree.signs ++
      (name.signs ++ after.flatMap Tree.signs)) := by
    rw [Tree.signs_of_ne h.ne_sign, eq, List.flatMap_cons, List.flatMap_append, List.flatMap_cons]
  refine covers.leaving ?_ ?_
  · rw [whole]
    exact .append (.refl _) (List.sublist_append_of_sublist_right (List.sublist_append_left ..))
  · rw [whole, left]
    refine List.perm_iff_count.2 fun point => ?_
    simp only [List.count_append]
    omega

end

/-! ## All constructs -/

section

variable {d : Document} {tree : Tree} {account : Tree → Account}
  (covers : ∀ {tree}, Tokenized d tree → Covers (account tree) tree.signs)

include covers

/-- A construct with one operand has the signs of that operand. -/
theorem covers_firstOperand (h : Tokenized d tree) (single : tree.kind ∈ singleKinds) :
    Covers (Account.firstOperand account tree) tree.signs := by
  unfold Account.firstOperand
  split
  · next operand rest eq =>
    have mem : operand ∈ tree.operands := eq ▸ List.mem_cons_self
    have plain : ∀ kind ∈ singleKinds, kind ∉ signedKinds := by decide
    have alone : tree.operands = [operand] := by
      rw [Tree.operands_eq, List.mem_filter] at mem
      obtain ⟨before, after, split, others⟩ := (h.fits.shape.outline.single single).split mem.1
        (by rw [mem.2]; exact Bool.noConfusion)
      have none {parts : List Tree} (sub : parts ⊆ before ++ after) :
          parts.filter Tree.isOperand = [] :=
        List.filter_eq_nil_iff.2 fun part mem => by
          rw [others part (sub mem)]
          exact Bool.false_ne_true
      rw [Tree.operands_eq, split, List.filter_append, List.filter_cons_of_pos mem.2,
        none (List.subset_append_left ..), none (List.subset_append_right ..), List.nil_append]
    rw [h.signs_eq_operands (plain _ single), alone, List.flatMap_singleton]
    exact covers (h.operand mem)
  · exact .copied

theorem covers_key (h : Tokenized d tree) : Covers (Account.key account tree) tree.signs := by
  unfold Account.key
  split
  · next kind => exact covers_firstOperand covers h (by rw [kind]; decide)
  · exact covers h

/-- A call loses its own sign, and those of its arguments of types. -/
theorem covers_call (h : Tokenized d tree) (kind : tree.kind = "call_expression") :
    Covers (Account.call account tree) tree.signs := by
  unfold Account.call
  split
  · next callee arguments hc ha =>
    split
    · next list =>
      have table : joint? tree.kind = some ⟨"function", "arguments", ["type_arguments"]⟩ := by
        rw [kind]
        rfl
      refine h.covers_joined table (by decide) (by decide) hc ha
        (fun part _ => List.mem_singleton.1) (.cons (covers (h.child hc)) ?_)
      rw [(h.child ha).signs_eq_operands (by rw [list]; decide)]
      exact .map fun argument mem => covers ((h.child ha).operand mem)
    · exact .copied
  · exact .copied

/-- An access with a sign of its own is copied, and any other one loses the signs beside its two
parts. -/
theorem covers_access {part : String} {beside : List String} (h : Tokenized d tree)
    (table : joint? tree.kind = some ⟨"object", part, beside⟩) (second : part ∈ secondNames)
    (few : ∀ kind ∈ beside, kind = "optional_chain" ∨ kind = "type_arguments") :
    Covers (Account.access account part tree) tree.signs := by
  unfold Account.access
  split
  · next target name ht hn =>
    split
    · exact .copied
    · next plain =>
      have apart : "object" ≠ part := by
        rintro rfl
        exact absurd second (by decide)
      refine h.covers_joined table apart second ht hn
        (fun part mem kind => ?_) (.pair (covers (h.child ht)) (covers (h.child hn)))
      refine (few _ kind).resolve_left fun chain => plain ?_
      exact List.any_eq_true.2 ⟨part, mem, by simp [chain]⟩
  · exact .copied

theorem covers_assignment (h : Tokenized d tree) (kind : tree.kind = "assignment_expression") :
    Covers (Account.assignment account tree) tree.signs := by
  unfold Account.assignment
  split
  · next left right hl hr =>
    have table : joint? tree.kind = some ⟨"left", "right", []⟩ := by
      rw [kind]
      rfl
    exact h.covers_joined table (by decide) (by decide) hl hr nofun
      (.pair (covers (h.child hl)) (covers (h.child hr)))
  · exact .copied

/-- An entry of an object has the signs of its name and of its value. -/
theorem covers_entry (h : Tokenized d tree) : Covers (Account.entry account tree) tree.signs := by
  unfold Account.entry
  split
  · next kind =>
    split
    · next name value hn hv =>
      have table : joint? tree.kind = some ⟨"key", "value", []⟩ := by
        rw [kind]
        rfl
      exact h.covers_joined table (by decide) (by decide) hn hv nofun
        (.pair (covers_key covers (h.child hn)) (covers (h.child hv)))
    · exact .copied
  · exact .copied

theorem covers_object (h : Tokenized d tree) (kind : tree.kind = "object") :
    Covers (.join (tree.operands.map (Account.entry account))) tree.signs := by
  rw [h.signs_eq_operands (by rw [kind]; decide)]
  exact .map fun entry mem => covers_entry covers (h.operand mem)

/-- A template has the signs of its substitutions. -/
theorem covers_template (h : Tokenized d tree) (kind : tree.kind = "template_string") :
    Covers (.join ((tree.namedChildren.filter (·.kind = "template_substitution")).map
      (Account.firstOperand account))) tree.signs := by
  have substitutions : tree.namedChildren.filter (·.kind = "template_substitution") =
      tree.operands := by
    refine List.filter_congr fun part mem => ?_
    obtain ⟨mem, named⟩ := List.mem_filter.1 mem
    rw [← Bool.coe_iff_coe]
    simp only [decide_eq_true_eq, Bool.not_eq_true', Tree.isComment, decide_eq_false_iff_not]
    constructor
    · intro kind
      rw [kind]
      decide
    · intro other
      have among := h.fits.shape.outline.parts _ (by rw [kind]; rfl) part mem
      exact List.mem_singleton.1 (among (by simp [Tree.isOperand, named, Tree.isComment, other]))
  rw [h.signs_eq_operands (by rw [kind]; decide), substitutions]
  refine .map fun substitution mem => covers_firstOperand covers (h.operand mem) ?_
  rw [← substitutions] at mem
  rw [of_decide_eq_true (List.mem_filter.1 mem).2]
  decide

theorem covers_construct (h : Tokenized d tree) :
    Covers (Account.construct account tree) tree.signs := by
  unfold Account.construct
  split
  · next kind => exact covers_call covers h kind
  · next kind => exact covers_access covers h (by rw [kind]; rfl) (by decide) (by decide)
  · next kind => exact covers_access covers h (by rw [kind]; rfl) (by decide) (by decide)
  · next kind => exact covers_assignment covers h kind
  · next kind => exact covers_object covers h kind
  · next kind => exact covers_template covers h kind
  · exact .copied

end

/-! ## What is lost -/

/-- Nothing with a sign in it is left out of any construct in the tree: no call has a sign of its
own, and there are no signs in type arguments. -/
def Tree.IsPlain (tree : Tree) : Prop := ∀ part : Tree, part.Within tree → part.leftOut = []

section

variable {tree part : Tree} {account : Tree → Account}

theorem Tree.IsPlain.of_mem (plain : tree.IsPlain) (mem : part ∈ tree.children) : part.IsPlain :=
  fun _ below => plain _ (.trans below (.part mem .whole))

theorem Tree.IsPlain.child {name : String} (plain : tree.IsPlain)
    (eq : tree.child? name = some part) : part.IsPlain := plain.of_mem (Tree.mem_of_child? eq)

theorem Tree.IsPlain.operand (plain : tree.IsPlain) (mem : part ∈ tree.operands) : part.IsPlain :=
  plain.of_mem (Tree.mem_of_mem_operands mem)

theorem lost_leaving {parts : Account} (none : parts.lost = []) (plain : tree.IsPlain) :
    (parts.leaving tree).lost = [] := by
  rw [Account.leaving, none, plain tree .whole, List.append_nil]

theorem lost_join_eq_nil {parts : List Account} :
    (Account.join parts).lost = [] ↔ ∀ part ∈ parts, part.lost = [] := List.flatMap_eq_nil_iff

theorem lost_join_pair {first second : Account} (hf : first.lost = []) (hs : second.lost = []) :
    (Account.join [first, second]).lost = [] :=
  lost_join_eq_nil.2 (List.forall_mem_cons.2 ⟨hf, List.forall_mem_singleton.2 hs⟩)

variable (none : ∀ {tree : Tree}, tree.IsPlain → (account tree).lost = [])

include none

theorem lost_firstOperand (plain : tree.IsPlain) :
    (Account.firstOperand account tree).lost = [] := by
  unfold Account.firstOperand
  split
  · next operand rest eq => exact none (plain.operand (eq ▸ List.mem_cons_self))
  · rfl

theorem lost_key (plain : tree.IsPlain) : (Account.key account tree).lost = [] := by
  unfold Account.key
  split
  · exact lost_firstOperand none plain
  · exact none plain

theorem lost_call (plain : tree.IsPlain) : (Account.call account tree).lost = [] := by
  unfold Account.call
  split
  · next callee arguments hc ha =>
    split
    · refine lost_leaving (lost_join_eq_nil.2 (List.forall_mem_cons.2 ⟨none (plain.child hc), ?_⟩))
        plain
      exact List.forall_mem_map.2 fun argument mem => none ((plain.child ha).operand mem)
    · rfl
  · rfl

theorem lost_access {part : String} (plain : tree.IsPlain) :
    (Account.access account part tree).lost = [] := by
  unfold Account.access
  split
  · next target name ht hn =>
    split
    · rfl
    · exact lost_leaving (lost_join_pair (none (plain.child ht)) (none (plain.child hn))) plain
  · rfl

theorem lost_assignment (plain : tree.IsPlain) : (Account.assignment account tree).lost = [] := by
  unfold Account.assignment
  split
  · next left right hl hr =>
    exact lost_leaving (lost_join_pair (none (plain.child hl)) (none (plain.child hr))) plain
  · rfl

theorem lost_entry (plain : tree.IsPlain) : (Account.entry account tree).lost = [] := by
  unfold Account.entry
  split
  · split
    · next name value hn hv =>
      exact lost_leaving (lost_join_pair (lost_key none (plain.child hn)) (none (plain.child hv)))
        plain
    · rfl
  · rfl

/-- Nothing is lost of a plain tree: all that is left out of a construct is without a sign. -/
theorem lost_construct (plain : tree.IsPlain) : (Account.construct account tree).lost = [] := by
  unfold Account.construct
  split
  · exact lost_call none plain
  · exact lost_access none plain
  · exact lost_access none plain
  · exact lost_assignment none plain
  · exact lost_join_eq_nil.2
      (List.forall_mem_map.2 fun entry mem => lost_entry none (plain.operand mem))
  · refine lost_join_eq_nil.2 (List.forall_mem_map.2 fun substitution mem => ?_)
    exact lost_firstOperand none (plain.of_mem (List.mem_filter.1 (List.mem_filter.1 mem).1).1)
  · rfl

end

/-- No sign of a plain tree is lost. -/
theorem lost_within (levels : Nat) {tree : Tree} (plain : tree.IsPlain) :
    (Account.within levels tree).lost = [] := by
  induction levels generalizing tree with
  | zero => rfl
  | succ levels ih => exact lost_construct ih plain

/-- A call that is put together anew loses its own sign. -/
theorem mem_lost_of_call {d : Document} {levels : Nat} {tree callee arguments sign : Tree}
    (h : Tokenized d tree) (kind : tree.kind = "call_expression")
    (hc : tree.child? "function" = some callee) (ha : tree.child? "arguments" = some arguments)
    (list : arguments.kind = "arguments") (mem : sign ∈ tree.children)
    (own : sign.kind = signKind) :
    sign.start ∈ (Account.within (levels + 1) tree).lost := by
  have table : joint? tree.kind = some ⟨"function", "arguments", ["type_arguments"]⟩ := by
    rw [kind]
    rfl
  obtain ⟨before, after, eq, -⟩ := h.joined table (by decide) (by decide) hc ha
  have isSign := h.sign mem own
  have later : sign ∈ tree.children.drop 1 := by
    rw [eq] at mem ⊢
    refine (List.mem_cons.1 mem).resolve_left ?_
    rintro rfl
    have leads : sign.field = some "function" := by simpa using List.find?_some hc
    rw [isSign.field] at leads
    cases leads
  have out : sign.isLeftOut := by simp [Tree.isLeftOut, Tree.isSecond, isSign.field, own]
  have start : sign.start ∈ sign.signs := by
    obtain ⟨_, _, _, _, _, _, _⟩ := sign
    obtain rfl : _ = signKind := own
    exact List.mem_singleton.2 rfl
  have left : sign.start ∈ tree.leftOut :=
    List.mem_flatMap.2 ⟨sign, List.mem_filter.2 ⟨later, out⟩, start⟩
  simp only [Account.within, Account.construct, kind, Account.call, hc, ha, list]
  exact List.mem_append_right _ left

/-- **Every sign of a tree is kept or lost, and those that are kept stay in their order.** -/
theorem covers_within {d : Document} (levels : Nat) {tree : Tree} (h : Tokenized d tree) :
    Covers (Account.within levels tree) tree.signs := by
  induction levels generalizing tree with
  | zero => exact .copied
  | succ levels ih => exact covers_construct ih h

end ElementWrapper.Source
