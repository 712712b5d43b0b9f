import ElementWrapper.Proofs.Module.Lowering

/-!
Lowering reaches a normal form. What a walk from the root meets is what stands anywhere in the tree
(`Node.everywhere_iff`), so that `Cooks` and `TemplateFree` can be said of the nodes that a walk
lists, wherever they stand: in a computed key, among the arguments of a call, in a construct that is
kept as its text or in a template that stands in a template.
-/

namespace ElementWrapper

open Literal (cook)

namespace Node

/-- Every node that a walk from the root meets has the property. -/
def Everywhere (P : Node → Prop) (root : Node) : Prop := ∀ visit ∈ root.visits, P visit.node

/-- The nodes below a node do not depend on where it was reached from. -/
theorem map_node_visitsBelow (node : Node) (parent : Option Node) :
    (node.visitsBelow parent).map Visit.node = node.visits.map Visit.node := by
  rw [visits, visitsBelow_eq, visitsBelow_eq]
  rfl

/-- A walk lists the root and then the nodes of all subtrees. -/
theorem map_node_visits (root : Node) : root.visits.map Visit.node =
    root :: root.children.flatMap fun child => child.visits.map Visit.node := by
  rw [visits, visitsBelow_eq, List.map_cons, List.map_flatMap]
  simp only [map_node_visitsBelow]

theorem everywhere_iff_map {P : Node → Prop} {root : Node} :
    Everywhere P root ↔ ∀ node ∈ root.visits.map Visit.node, P node :=
  List.forall_mem_map.symm

/-- The walk goes through the root and then through all subtrees. -/
theorem everywhere_iff {P : Node → Prop} {root : Node} :
    Everywhere P root ↔ P root ∧ ∀ child ∈ root.children, Everywhere P child := by
  simp only [everywhere_iff_map, map_node_visits root, List.forall_mem_cons,
    List.forall_mem_flatMap]

end Node

open Node (Everywhere everywhere_iff)

theorem templateFree_iff {node : Node} :
    TemplateFree node ↔ Everywhere (·.form.isTemplate = false) node := by
  induction node using Node.induction with
  | step location comments form ih =>
    rw [everywhere_iff]
    constructor
    · rintro ⟨ne, children⟩
      exact ⟨ne, fun child mem => (ih child mem).1 (children child mem)⟩
    · rintro ⟨ne, children⟩
      exact .mk ne fun child mem => (ih child mem).2 (children child mem)

/-- A form has a text to be cooked only if it is a piece of a template. -/
theorem cooks_quasiSource_iff {form : Form Node} :
    (∃ text, cook form.quasiSource = .ok text) ↔
      ∀ source tail, form = .quasi source tail → ∃ text, cook source = .ok text := by
  cases form with
  | quasi source tail =>
    constructor
    · rintro h _ _ ⟨⟩
      exact h
    · exact fun h => h source tail rfl
  | _ =>
    -- A form that is no piece of a template has the empty text, which cooks.
    refine iff_of_true ⟨[], ?_⟩ (by simp)
    simp [Form.quasiSource, cook]

/-- A tree cooks just if all pieces of text in it do. -/
theorem cooks_iff {node : Node} :
    Cooks node ↔ Everywhere (fun part => ∀ source tail, part.form = .quasi source tail →
      ∃ text, cook source = .ok text) node := by
  induction node using Node.induction with
  | step location comments form ih =>
    rw [everywhere_iff]
    constructor
    · rintro ⟨cooked, children⟩
      exact ⟨cooks_quasiSource_iff.1 cooked,
        fun child mem => (ih child mem).1 (children child mem)⟩
    · rintro ⟨cooked, children⟩
      exact .mk (cooks_quasiSource_iff.2 cooked)
        fun child mem => (ih child mem).2 (children child mem)

namespace Lowering

/-- **Lowering reaches a normal form.** If every piece of a template in the tree can be cooked, the
tree is lowered to one in which a walk meets no template, and which is left as it is when it is
lowered again. A tree in which a walk meets no template is left as it is, with the places and the
comments of all its nodes. -/
theorem lower_normalForm (node : Node) :
    ((∀ visit ∈ node.visits, ∀ source tail, visit.node.form = .quasi source tail →
        ∃ text, cook source = .ok text) →
      ∃ result, lower node = .ok result ∧
        (∀ visit ∈ result.visits, visit.node.form.isTemplate = false) ∧
        lower result = .ok result) ∧
    ((∀ visit ∈ node.visits, visit.node.form.isTemplate = false) → lower node = .ok node) := by
  refine ⟨fun cooked => ?_, fun free => lower_of_templateFree (templateFree_iff.2 free)⟩
  have lowers : lower node = .ok (lowered node) := lower_of_cooks (cooks_iff.2 cooked)
  have free : TemplateFree (lowered node) := templateFree_of_lower lowers
  exact ⟨lowered node, lowers, templateFree_iff.1 free, lower_of_templateFree free⟩

/-- Templates in a computed key, in an argument of a call below a construct that is kept as its
text, and in another template. -/
def scatteredTemplates : Node :=
  let around (inner : Node) : Node :=
    .of (.template [.of (.quasi ("a" : Text) false), .of (.quasi ("\\n" : Text) true)] [inner])
  .mk (some ⟨1, 0⟩) [⟨true, ("kept" : Text)⟩] (.object
    [.of (.property (around (.identifier ("key" : Text)))
      (.of (.raw ("NewExpression" : Text) ("new f" : Text)
        [.of (.call (.identifier ("f" : Text)) [around (around (.identifier ("x" : Text)))])]))
      true)])

/-- Templates at three places of a tree, none of which is left. -/
theorem lower_scatteredTemplates :
    ∃ result, lower scatteredTemplates = .ok result ∧
      (∀ visit ∈ result.visits, visit.node.form.isTemplate = false) ∧
      lower result = .ok result ∧ lower scatteredTemplates ≠ .ok scatteredTemplates := by
  have cooked : ∀ visit ∈ scatteredTemplates.visits,
      (cook visit.node.form.quasiSource).toOption.isSome := List.all_eq_true.1 (by cbv)
  obtain ⟨result, lowers, free, again⟩ := (lower_normalForm scatteredTemplates).1
    fun visit mem source tail h => by
      have some := cooked visit mem
      rw [h, Form.quasiSource] at some
      cases value : cook source with
      | ok text => exact ⟨text, rfl⟩
      | error e => rw [value] at some; cases some
  refine ⟨result, lowers, free, again, fun same => ?_⟩
  obtain rfl := Except.ok.inj (lowers.symm.trans same)
  exact absurd free (by decide)

end Lowering

end ElementWrapper
