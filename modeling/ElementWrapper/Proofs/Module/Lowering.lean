import ElementWrapper.Module.Lowering
import ElementWrapper.Proofs.Module.Recursion

/-!
How a lowered tree is made of the lowered subtrees. `lower_mk` is the step: a tree whose subtrees
are lowered is left as it is unless it is a template, and lowering fails only at a piece of a
template that cannot be cooked (`lower_of_cooks`).
-/

namespace ElementWrapper

open Literal (cook)

/-- Every piece of a template in the tree has a cooked value. -/
inductive Cooks : Node → Prop where
  | mk {location comments form} : (∃ text, cook form.quasiSource = .ok text) →
    (∀ child ∈ form.children, Cooks child) → Cooks (.mk location comments form)

/-- A template literal. -/
def Form.isTemplate : Form α → Bool
  | .template .. => true
  | _ => false

/-- No template stands in the tree. -/
inductive TemplateFree : Node → Prop where
  | mk {location comments form} : form.isTemplate = false →
    (∀ child ∈ form.children, TemplateFree child) → TemplateFree (.mk location comments form)

@[simp] theorem templateFree_of {form : Form Node} :
    TemplateFree (.of form) ↔
      form.isTemplate = false ∧ ∀ child ∈ form.children, TemplateFree child := by
  constructor
  · rintro ⟨ne, children⟩
    exact ⟨ne, children⟩
  · rintro ⟨ne, children⟩
    exact .mk ne children

@[simp] theorem templateFree_identifier (name : Text) : TemplateFree (.identifier name) :=
  .mk rfl nofun

@[simp] theorem templateFree_string (value : Text) : TemplateFree (.string value) := .mk rfl nofun

@[simp] theorem templateFree_memberNamed (target name : Text) :
    TemplateFree (.memberNamed target name) := by
  simp [Node.memberNamed, Form.isTemplate, Form.children]

theorem Form.template_or_ne (form : Form α) :
    (∃ quasis expressions, form = .template quasis expressions) ∨ form.isTemplate = false := by
  cases form with
  | template quasis expressions => exact .inl ⟨quasis, expressions, rfl⟩
  | _ => exact .inr rfl

theorem Form.isTemplate_map (f : α → β) (form : Form α) :
    (form.map f).isTemplate = form.isTemplate := by
  cases form <;> rfl

theorem Form.quasiSource_map (f : α → β) (form : Form α) :
    (form.map f).quasiSource = form.quasiSource := by
  cases form <;> rfl

namespace Lowering

/-- The lowered tree; a tree that cannot be lowered stays. -/
def lowered (node : Node) : Node := (lower node).toOption.getD node

theorem lowered_eq {node result : Node} (h : lower node = .ok result) : lowered node = result := by
  rw [lowered, h]
  rfl

theorem lower_eq_lowered {node result : Node} (h : lower node = .ok result) :
    lower node = .ok (lowered node) := by
  rw [lowered_eq h, h]

variable {location : Option Location} {comments : List Comment} {form : Form Node}

theorem lower_mk (h : ∀ child ∈ form.children, lower child = .ok (lowered child)) :
    lower (.mk location comments form) =
      lowerTemplate (.mk location comments (form.map lowered)) := by
  have children : form.traverse lower = .ok (form.map lowered) := Form.traverse_ok h
  rw [lower, Node.rebuild_mk]
  exact congrArg (· >>= fun form => lowerTemplate (.mk location comments form)) children

theorem lower_children {result : Node} (h : lower (.mk location comments form) = .ok result) :
    ∀ child ∈ form.children, lower child = .ok (lowered child) := by
  rw [lower, Node.rebuild_mk] at h
  obtain ⟨_, children, _⟩ := Except.bind_eq_ok.1 h
  intro child mem
  obtain ⟨_, hc⟩ := Form.ok_of_traverse children child mem
  exact lower_eq_lowered hc

theorem lowerTemplate_of_ne (h : form.isTemplate = false) :
    lowerTemplate (.mk location comments form) = .ok (.mk location comments form) := by
  cases form with
  | template quasis expressions => cases h
  | _ => rfl

/-- Only a template is replaced. -/
theorem lower_of_ne (ne : form.isTemplate = false)
    (h : ∀ child ∈ form.children, lower child = .ok (lowered child)) :
    lower (.mk location comments form) = .ok (.mk location comments (form.map lowered)) := by
  rw [lower_mk h]
  exact lowerTemplate_of_ne ((Form.isTemplate_map lowered form).trans ne)

theorem lowered_of_ne (ne : form.isTemplate = false)
    (h : ∀ child ∈ form.children, lower child = .ok (lowered child)) :
    lowered (.mk location comments form) = .mk location comments (form.map lowered) :=
  lowered_eq (lower_of_ne ne h)

theorem lowered_leaf (ne : form.isTemplate = false)
    (leaf : form.children = []) :
    lowered (.mk location comments form) = .mk location comments form := by
  rw [lowered_of_ne ne (by simp [leaf]), Form.map_eq_self (by simp [leaf])]

/-- A tree without templates is left as it is. -/
theorem lower_of_templateFree {node : Node} (h : TemplateFree node) : lower node = .ok node := by
  induction h with
  | mk ne _ ih =>
    rw [lower_of_ne ne fun child mem => lower_eq_lowered (ih child mem),
      Form.map_eq_self fun child mem => lowered_eq (ih child mem)]

/-! ## The expression that stands for a template -/

/-- A string literal or a call. -/
def IsStringOrCall (node : Node) : Prop :=
  (∃ value spelling, node.form = .string value spelling) ∨
    ∃ callee arguments, node.form = .call callee arguments

theorem IsStringOrCall.quasiSource {node : Node} (h : IsStringOrCall node) :
    node.form.quasiSource = [] := by
  obtain ⟨_, _, h⟩ | ⟨_, _, h⟩ := h <;> rw [h] <;> rfl

theorem IsStringOrCall.isTemplate {node : Node} (h : IsStringOrCall node) :
    node.form.isTemplate = false := by
  obtain ⟨_, _, h⟩ | ⟨_, _, h⟩ := h <;> rw [h] <;> rfl

theorem Chain.push_isStringOrCall (chain : Chain) (part : Node) :
    IsStringOrCall (chain.push part).node := by
  simp only [push]
  split
  · exact .inr ⟨_, _, rfl⟩
  · exact .inr ⟨_, _, rfl⟩

theorem foldl_push_isStringOrCall (chain : Chain) (h : IsStringOrCall chain.node)
    (parts : List Node) : IsStringOrCall (parts.foldl Chain.push chain).node := by
  induction parts generalizing chain with
  | nil => exact h
  | cons part parts ih => exact ih _ (chain.push_isStringOrCall part)

theorem exists_string_of_stringValue? {node : Node} (h : node.stringValue?.isSome) :
    ∃ value spelling, node.form = .string value spelling := by
  match node with
  | .mk _ _ (.string value spelling) => exact ⟨value, spelling, rfl⟩

theorem ofParts_isStringOrCall (parts : List Node) : IsStringOrCall (ofParts parts) := by
  cases parts with
  | nil => exact .inl ⟨_, _, rfl⟩
  | cons head rest =>
    simp only [ofParts]
    split
    · next h =>
      exact foldl_push_isStringOrCall ⟨head, true⟩ (.inl (exists_string_of_stringValue? h)) rest
    · exact foldl_push_isStringOrCall ⟨Node.string [], true⟩ (.inl ⟨_, _, rfl⟩) (head :: rest)

theorem lowerTemplate_template {quasis expressions : List Node} {result : Node} :
    lowerTemplate (.mk location comments (.template quasis expressions)) = .ok result ↔
      ∃ pieces, parts quasis expressions = .ok pieces ∧
        .mk location comments (ofParts pieces).form = result := by
  simp only [lowerTemplate, Except.bind_eq_ok]
  refine exists_congr fun pieces => and_congr_right fun _ => ?_
  obtain ⟨_, _, form⟩ := ofParts pieces
  exact Except.pure_eq_ok

/-- What holds of strings and of the parts, and is kept when a call takes up a part, holds of the
expression that stands for the parts. -/
theorem ofParts_induction {P : Node → Prop} (string : ∀ text, P (Node.string text))
    (concat : ∀ target argument, P target → P argument → P (concatCall target argument))
    (push : ∀ location comments callee arguments part,
      P (.mk location comments (.call callee arguments)) → P part →
      P (.mk location comments (.call callee (arguments ++ [part]))))
    {parts : List Node} (h : ∀ part ∈ parts, P part) : P (ofParts parts) := by
  have step (chain : Chain) (part : Node) (hc : P chain.node) (hp : P part) :
      P (chain.push part).node := by
    simp only [Chain.push]
    split
    · next hn _ => exact push _ _ _ _ part (hn ▸ hc) hp
    · exact concat _ part hc hp
  have steps (parts : List Node) (chain : Chain) (hc : P chain.node)
      (h : ∀ part ∈ parts, P part) : P (parts.foldl Chain.push chain).node := by
    induction parts generalizing chain with
    | nil => exact hc
    | cons part parts ih =>
      obtain ⟨first, others⟩ := List.forall_mem_cons.1 h
      exact ih _ (step chain part hc first) others
  cases parts with
  | nil => exact string []
  | cons head rest =>
    obtain ⟨first, others⟩ := List.forall_mem_cons.1 h
    simp only [ofParts]
    split
    · exact steps rest ⟨head, true⟩ first others
    · exact steps (head :: rest) ⟨Node.string [], true⟩ (string []) h

/-! ## Success -/

theorem isStringOrCall_of_lower {quasis expressions : List Node} {result : Node}
    (h : lower (.mk location comments (.template quasis expressions)) = .ok result) :
    IsStringOrCall result := by
  rw [lower_mk (lower_children h)] at h
  obtain ⟨pieces, _, rfl⟩ := lowerTemplate_template.1 h
  exact ofParts_isStringOrCall pieces

/-- Lowering keeps the pieces of templates as they are. -/
theorem quasiSource_of_lower {node result : Node} (h : lower node = .ok result) :
    result.form.quasiSource = node.form.quasiSource := by
  obtain ⟨location, comments, form⟩ := node
  obtain ⟨quasis, expressions, rfl⟩ | ne := form.template_or_ne
  · exact (isStringOrCall_of_lower h).quasiSource
  · obtain rfl := Except.ok.inj ((lower_of_ne ne (lower_children h)).symm.trans h)
    exact Form.quasiSource_map lowered form

/-- No template is left at the root. -/
theorem ne_template_of_lower {node result : Node} (h : lower node = .ok result) :
    result.form.isTemplate = false := by
  obtain ⟨location, comments, form⟩ := node
  obtain ⟨_, _, rfl⟩ | ne := form.template_or_ne
  · exact (isStringOrCall_of_lower h).isTemplate
  · obtain rfl := Except.ok.inj ((lower_of_ne ne (lower_children h)).symm.trans h)
    exact (Form.isTemplate_map lowered form).trans ne

/-- The parts of a template are texts of its own and its expressions. -/
theorem mem_parts {quasis expressions result : List Node}
    (h : parts quasis expressions = .ok result) :
    ∀ part ∈ result, (∃ text, part = Node.string text) ∨ part ∈ expressions := by
  induction quasis generalizing expressions result with
  | nil =>
    obtain rfl := Except.ok.inj h
    nofun
  | cons quasi quasis ih =>
    simp only [parts, Except.bind_eq_ok, Except.pure_eq_ok] at h
    obtain ⟨cooked, _, rest, hr, rfl⟩ := h
    intro part mem
    simp only [List.mem_append] at mem
    obtain (mem | mem) | mem := mem
    · left
      split at mem
      · cases mem
      · exact ⟨cooked, List.mem_singleton.1 mem⟩
    · right
      have := Option.mem_toList.1 (List.mem_filter.1 mem).1
      exact List.mem_of_mem_head? this
    · exact (ih hr part mem).imp_right List.mem_of_mem_tail

/-- No template is left in a lowered tree. -/
theorem templateFree_of_lower {node result : Node} (h : lower node = .ok result) :
    TemplateFree result := by
  induction node using Node.induction generalizing result with
  | step location comments form ih =>
    have children := lower_children h
    have free : ∀ child ∈ form.children, TemplateFree (lowered child) :=
      fun child mem => ih child mem (children child mem)
    obtain ⟨quasis, expressions, rfl⟩ | ne := form.template_or_ne
    · rw [lower_mk children] at h
      obtain ⟨pieces, hp, rfl⟩ := lowerTemplate_template.1 h
      have whole : TemplateFree (ofParts pieces) := by
        refine ofParts_induction templateFree_string ?_ ?_ fun part mem => ?_
        · intro target argument ht ha
          simp [concatCall, Form.isTemplate, Form.children, ht, ha]
        · rintro location comments callee arguments part ⟨_, parts⟩ hp
          refine .mk rfl ?_
          simp only [Form.children, List.forall_mem_cons, List.forall_mem_append] at parts ⊢
          exact ⟨parts.1, parts.2, hp, List.forall_mem_nil _⟩
        · obtain ⟨text, rfl⟩ | substitution := mem_parts hp part mem
          · exact templateFree_string text
          · obtain ⟨child, own, rfl⟩ := List.mem_map.1 substitution
            exact free child (List.mem_append_right quasis own)
      generalize ofParts pieces = concatenation at whole
      obtain ⟨ne, parts⟩ := whole
      exact .mk ne parts
    · obtain rfl := Except.ok.inj ((lower_of_ne ne children).symm.trans h)
      refine .mk ((Form.isTemplate_map lowered form).trans ne) ?_
      rw [Form.children_map]
      exact List.forall_mem_map.2 free

theorem eq_empty_of_isEmptyString {node : Node} (h : isEmptyString node = true) :
    ∃ spelling, node.form = .string [] spelling := by
  obtain ⟨_, _, form⟩ := node
  cases form with
  | string value spelling =>
    obtain rfl := List.isEmpty_iff.1 h
    exact ⟨spelling, rfl⟩
  | _ => cases h

theorem parts_ok {quasis : List Node}
    (h : ∀ quasi ∈ quasis, ∃ text, cook quasi.form.quasiSource = .ok text)
    (expressions : List Node) : ∃ result, parts quasis expressions = .ok result := by
  induction quasis generalizing expressions with
  | nil => exact ⟨[], rfl⟩
  | cons quasi quasis ih =>
    obtain ⟨⟨text, ht⟩, hq⟩ := List.forall_mem_cons.1 h
    obtain ⟨rest, hr⟩ := ih hq expressions.tail
    exact ⟨_, by rw [parts, ht]; simp only [hr]; rfl⟩

/-- **Lowering succeeds** if every piece of a template can be cooked. -/
theorem lower_of_cooks {node : Node} (h : Cooks node) : lower node = .ok (lowered node) := by
  induction h with
  | @mk location comments form cooked children ih =>
    suffices ∃ result, lower (.mk location comments form) = .ok result from
      lower_eq_lowered this.choose_spec
    obtain ⟨quasis, expressions, rfl⟩ | ne := form.template_or_ne
    · have cooks : ∀ quasi ∈ quasis.map lowered,
          ∃ text, cook quasi.form.quasiSource = .ok text := by
        intro _ mem
        obtain ⟨quasi, hq, rfl⟩ := List.mem_map.1 mem
        have mem := List.mem_append_left expressions hq
        rw [quasiSource_of_lower (ih quasi mem)]
        obtain ⟨text, _⟩ := children quasi mem
        exact text
      obtain ⟨pieces, hp⟩ := parts_ok cooks (expressions.map lowered)
      rw [lower_mk ih]
      exact ⟨_, lowerTemplate_template.2 ⟨pieces, hp, rfl⟩⟩
    · exact ⟨_, lower_of_ne ne ih⟩

end Lowering

end ElementWrapper
