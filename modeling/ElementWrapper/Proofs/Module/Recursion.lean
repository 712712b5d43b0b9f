import ElementWrapper.Module.Traversal
import ElementWrapper.Proofs.Result

/-!
Reasoning about trees through their forms. `Node.induction` is the one induction over nodes: what
holds of a node as soon as it holds of its direct subtrees holds of every node. A form that is gone
through with a step that may fail is `Form.map` of it if the step succeeds at every subtree, and
`Node.rebuild_mk` takes a rebuilt tree apart into its rebuilt subtrees.
-/

namespace ElementWrapper

namespace Form

variable {ε α β γ : Type}

theorem map_map (f : α → β) (g : β → γ) (form : Form α) :
    (form.map f).map g = form.map (g ∘ f) := by
  cases form <;> simp [map]

theorem children_map (f : α → β) (form : Form α) : (form.map f).children = form.children.map f := by
  have option (a : Option α) : (a.map f).toList = a.toList.map f := by cases a <;> rfl
  cases form <;> simp [children, map, option]

theorem map_congr {f g : α → β} {form : Form α} (h : ∀ child ∈ form.children, f child = g child) :
    form.map f = form.map g := by
  have list {as : List α} (h : ∀ child ∈ as, f child = g child) : as.map f = as.map g :=
    List.map_congr_left h
  have option {a : Option α} (h : ∀ child ∈ a.toList, f child = g child) : a.map f = a.map g := by
    cases a with
    | none => rfl
    | some a => simpa using h
  cases form <;> simp only [children, List.forall_mem_append, List.forall_mem_cons] at h <;>
    grind only [map]

theorem map_eq_self {f : α → α} {form : Form α} (h : ∀ child ∈ form.children, f child = child) :
    form.map f = form := by
  rw [map_congr (g := fun child => child) h]
  cases form <;> simp [map]

theorem traverse_map {m : Type → Type} [Monad m] [LawfulMonad m] (f : α → β) (g : β → m γ)
    (form : Form α) : (form.map f).traverse g = form.traverse (g ∘ f) := by
  have option (a : Option α) : (a.map f).mapM g = a.mapM (g ∘ f) := by cases a <;> rfl
  cases form <;> simp [map, traverse, option, Function.comp_def]

/-- A traversal succeeds only if it does so at every child. -/
theorem ok_of_traverse {f : α → Except ε β} {form : Form α} {result : Form β}
    (h : form.traverse f = .ok result) : ∀ child ∈ form.children, ∃ c, f child = .ok c := by
  have list {as : List α} {bs : List β} := @Except.ok_of_mapM ε α β f as bs
  have option {a : Option α} {b : Option β} (h : a.mapM f = .ok b) :
      ∀ child ∈ a.toList, ∃ c, f child = .ok c := by
    cases a with
    | none => simp
    | some a =>
      obtain ⟨c, hc, _⟩ := Except.map_eq_ok.1 h
      simpa using ⟨c, hc⟩
  cases form <;> simp only [traverse, Except.bind_eq_ok] at h <;> simp only [children] <;> grind

/-- A traversal without a failure maps the children. -/
theorem traverse_ok {f : α → Except ε β} {g : α → β} {form : Form α}
    (h : ∀ child ∈ form.children, f child = .ok (g child)) :
    form.traverse f = .ok (form.map g) := by
  have list {as : List α} := @Except.mapM_ok ε α β f g as
  have option {a : Option α} (h : ∀ child ∈ a.toList, f child = .ok (g child)) :
      a.mapM f = .ok (a.map g) := by
    cases a with
    | none => rfl
    | some a => simpa using h
  cases form <;> simp only [children, List.forall_mem_append, List.forall_mem_cons] at h <;>
    simp +contextual [traverse, map, list, option, h]

end Form

namespace Node

/-- The cases are the thirty forms and the empty and longer lists of subtrees. -/
theorem induction {P : Node → Prop}
    (step : ∀ location comments form, (∀ child ∈ form.children, P child) →
      P (mk location comments form)) (node : Node) : P node := by
  apply @Node.rec P (fun form => ∀ child ∈ form.children, P child)
    (fun nodes => ∀ child ∈ nodes, P child) (fun node => ∀ child ∈ node.toList, P child) step
  all_goals grind [Form.children]

/-- What is made of a tree when its form is taken together with what is made of its subtrees. -/
def reduce (combine : Form β → β) (node : Node) : β :=
  node.fold fun _ _ form => combine (form.map (·.2))

theorem reduce_mk (combine : Form β → β) (location : Option Location) (comments : List Comment)
    (form : Form Node) :
    (mk location comments form).reduce combine = combine (form.map (reduce combine)) := by
  rw [reduce, fold_mk, Form.map_map]
  rfl

theorem reduce_congr (combine : Form β → β) {node other : Node} (h : node.form = other.form) :
    node.reduce combine = other.reduce combine := by
  obtain ⟨_, _, form⟩ := node
  obtain ⟨_, _, _⟩ := other
  obtain rfl : form = _ := h
  simp only [reduce_mk]

theorem rebuild_mk {m : Type → Type} [Monad m] [LawfulMonad m] (replace : Node → m Node)
    (location : Option Location) (comments : List Comment) (form : Form Node) :
    (mk location comments form).rebuild replace =
      form.traverse (rebuild replace) >>= fun form => replace (mk location comments form) := by
  rw [rebuild, fold_mk, Form.traverse_map]
  rfl

theorem visitsBelow_eq (node : Node) (parent : Option Node) :
    node.visitsBelow parent =
      ⟨node, parent⟩ :: node.children.flatMap fun child => child.visitsBelow (some node) := by
  obtain ⟨location, comments, form⟩ := node
  have same : form.map (fun child => child) = form := Form.map_eq_self fun _ _ => rfl
  rw [visitsBelow, fold_mk]
  simp only [Form.map_map, Form.children_map, List.flatMap_map, Function.comp_def, same]
  rfl

end Node

end ElementWrapper
