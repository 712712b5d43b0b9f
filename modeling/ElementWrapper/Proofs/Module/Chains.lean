import ElementWrapper.Module.Lowering
import Mathlib.Data.List.Basic

/-!
The shape of a chain of calls of `concat`. The arguments of its calls, call by call from the
innermost, are groups of the parts that it is made of. One more part joins the last group or opens
one (`Chain.HasGroups.push`): it joins if it is a literal, or if all parts before it are. Hence only
the innermost call can begin with a literal, and there are as many calls as there are parts that are
no literals, but at least one (`concatenation_groups`).
-/

namespace ElementWrapper.Lowering

/-- A call of `concat`. -/
def concat (target : Node) (arguments : List Node) : Node :=
  .of (.call (.of (.member target (.identifier "concat") false)) arguments)

/-- The number of parts that are no literals. -/
def effects (parts : List Node) : Nat := parts.countP (!isLiteral ·)

theorem effects_append (parts more : List Node) :
    effects (parts ++ more) = effects parts + effects more := List.countP_append

theorem effects_singleton (part : Node) :
    effects [part] = if isLiteral part then 0 else 1 := by
  rw [effects, List.countP_singleton]
  cases isLiteral part <;> rfl

/-- The arguments of the calls of a chain. There are some in every call, and at most one of them is
no literal; a call on another call begins with one. -/
structure Grouped (groups : List (List Node)) : Prop where
  filled : ∀ group ∈ groups, group ≠ []
  single : ∀ group ∈ groups, effects group ≤ 1
  opened : ∀ group ∈ groups.tail, ∃ first ∈ group.head?, isLiteral first = false

variable {chain : Chain} {head part target : Node} {arguments last : List Node}
  {front groups : List (List Node)}

namespace Grouped

/-- One more argument of the last call. -/
theorem join (h : Grouped (front ++ [last])) (few : effects (last ++ [part]) ≤ 1) :
    Grouped (front ++ [last ++ [part]]) where
  filled group mem := by
    obtain mem | mem := List.mem_append.1 mem
    · exact h.filled group (List.mem_append_left _ mem)
    · rw [List.mem_singleton.1 mem]
      exact List.concat_ne_nil part last
  single group mem := by
    obtain mem | mem := List.mem_append.1 mem
    · exact h.single group (List.mem_append_left _ mem)
    · rw [List.mem_singleton.1 mem]
      exact few
  opened group mem := by
    cases front with
    | nil => cases mem
    | cons first front =>
      obtain mem | mem := List.mem_append.1 mem
      · exact h.opened group (List.mem_append_left _ mem)
      · obtain ⟨first, head, effect⟩ := h.opened last (List.mem_append_right _ List.mem_cons_self)
        rw [List.mem_singleton.1 mem, List.head?_append, head]
        exact ⟨first, rfl, effect⟩

/-- One more call. -/
theorem concat (h : Grouped groups) (effect : isLiteral part = false) :
    Grouped (groups ++ [[part]]) where
  filled group mem := by
    obtain mem | mem := List.mem_append.1 mem
    · exact h.filled group mem
    · rw [List.mem_singleton.1 mem]
      exact List.cons_ne_nil part []
  single group mem := by
    obtain mem | mem := List.mem_append.1 mem
    · exact h.single group mem
    · rw [List.mem_singleton.1 mem, effects_singleton, effect]
      exact Nat.le_refl 1
  opened group mem := by
    cases groups with
    | nil => cases mem
    | cons first groups =>
      obtain mem | mem := List.mem_append.1 mem
      · exact h.opened group mem
      · rw [List.mem_singleton.1 mem]
        exact ⟨part, rfl, effect⟩

end Grouped

namespace Chain

theorem push_of_joins (node : chain.node = concat target arguments)
    (joins : (isLiteral part || chain.available) = true) :
    chain.push part =
      ⟨concat target (arguments ++ [part]), chain.available && isLiteral part⟩ := by
  simp only [push, node, joins]
  rfl

theorem push_of_opens (opens : (isLiteral part || chain.available) = false) :
    chain.push part = ⟨concat chain.node [part], false⟩ := by
  obtain ⟨-, taken⟩ := Bool.or_eq_false_iff.1 opens
  simp only [push, taken, Bool.false_and]
  rw [taken] at opens
  split
  · next joins =>
    rw [opens] at joins
    cases joins
  · rfl

/-- A chain consists of calls with groups of arguments, and it is available as long as all of them
are literals. -/
structure HasGroups (chain : Chain) (head : Node) (groups : List (List Node)) : Prop where
  node : chain.node = groups.foldl concat head
  available : chain.available = decide (effects groups.flatten = 0)
  length : groups.length = max 1 (effects groups.flatten)
  grouped : Grouped groups

/-- The first part after the head opens the one group, whether it is a literal or not. -/
theorem hasGroups_first (location : Option Location) (comments : List Comment) (value : Text)
    (spelling : Option Text) (first : Node) :
    let head := Node.mk location comments (.string value spelling)
    (push ⟨head, true⟩ first).HasGroups head [[first]] := by
  intro head
  have pushed : push ⟨head, true⟩ first = ⟨concat head [first], isLiteral first⟩ := by
    simp only [push, Bool.true_and, head]
    rfl
  have few : effects [first] ≤ 1 := by
    rw [effects_singleton]
    split <;> decide
  rw [pushed]
  refine ⟨rfl, ?_, (Nat.max_eq_left few).symm, ?_⟩
  · change isLiteral first = decide (effects [first] = 0)
    rw [effects_singleton]
    cases isLiteral first <;> rfl
  · exact ⟨fun group mem => List.mem_singleton.1 mem ▸ List.cons_ne_nil first [],
      fun group mem => List.mem_singleton.1 mem ▸ few, nofun⟩

/-- The part is one more argument of the running call. -/
theorem HasGroups.join (h : chain.HasGroups head (front ++ [last]))
    (joins : (isLiteral part || chain.available) = true) :
    (chain.push part).HasGroups head (front ++ [last ++ [part]]) := by
  have node : chain.node = concat (front.foldl concat head) last := by
    rw [h.node, List.foldl_concat]
  have flatten : (front ++ [last ++ [part]]).flatten = (front ++ [last]).flatten ++ [part] := by
    rw [List.flatten_concat, List.flatten_concat, List.append_assoc]
  have free (effect : isLiteral part = false) : effects (front ++ [last]).flatten = 0 := by
    rwa [effect, Bool.false_or, h.available, decide_eq_true_eq] at joins
  refine ⟨?_, ?_, ?_, h.grouped.join ?_⟩
  · rw [push_of_joins node joins, List.foldl_concat]
  · rw [push_of_joins node joins, flatten, effects_append, effects_singleton, h.available]
    cases isLiteral part <;> simp
  · have same : (front ++ [last ++ [part]]).length = (front ++ [last]).length := by
      rw [List.length_append, List.length_append, List.length_singleton, List.length_singleton]
    rw [same, h.length, flatten, effects_append, effects_singleton]
    cases literal : isLiteral part with
    | true => rfl
    | false =>
      rw [free literal]
      rfl
  · rw [effects_append, effects_singleton]
    cases literal : isLiteral part with
    | true => exact h.grouped.single last (List.mem_append_right _ List.mem_cons_self)
    | false =>
      have none := free literal
      rw [List.flatten_concat, effects_append] at none
      rw [if_neg Bool.false_ne_true]
      omega

/-- The part is the first argument of a call of its own. -/
theorem HasGroups.concat (h : chain.HasGroups head groups)
    (opens : (isLiteral part || chain.available) = false) :
    (chain.push part).HasGroups head (groups ++ [[part]]) := by
  obtain ⟨effect, taken⟩ := Bool.or_eq_false_iff.1 opens
  rw [h.available, decide_eq_false_iff_not] at taken
  have more : effects (groups ++ [[part]]).flatten = effects groups.flatten + 1 := by
    rw [List.flatten_concat, effects_append, effects_singleton, effect]
    rfl
  refine ⟨?_, ?_, ?_, h.grouped.concat effect⟩
  · rw [push_of_opens opens, List.foldl_concat, h.node]
  · rw [push_of_opens opens, more]
    exact (decide_eq_false (Nat.succ_ne_zero _)).symm
  · rw [more, List.length_append, h.length, List.length_singleton]
    omega

/-- A literal joins the running call, and so does the first part that is none; any later one opens a
call. -/
theorem HasGroups.push (h : chain.HasGroups head groups) (part : Node) :
    ∃ more, (chain.push part).HasGroups head more ∧ more.flatten = groups.flatten ++ [part] := by
  cases joins : isLiteral part || chain.available with
  | true =>
    obtain rfl | ⟨front, last, rfl⟩ := List.eq_nil_or_concat groups
    · have length := h.length
      rw [List.length_nil] at length
      omega
    · rw [List.concat_eq_append] at h ⊢
      refine ⟨_, h.join joins, ?_⟩
      rw [List.flatten_concat, List.flatten_concat, List.append_assoc]
  | false => exact ⟨_, h.concat joins, List.flatten_concat⟩

theorem HasGroups.foldl (h : chain.HasGroups head groups) (parts : List Node) :
    ∃ more, (parts.foldl Chain.push chain).HasGroups head more ∧
      more.flatten = groups.flatten ++ parts := by
  induction parts generalizing chain groups with
  | nil => exact ⟨groups, h, (List.append_nil _).symm⟩
  | cons part parts ih =>
    obtain ⟨next, step, flatten⟩ := h.push part
    obtain ⟨more, done, whole⟩ := ih step
    exact ⟨more, done, by rw [whole, flatten, List.append_assoc]; rfl⟩

end Chain

/-- **The calls that join further parts to a string.** The string is at their head, and their
arguments, call by call from the innermost, are the further parts in their order. There are as many
calls as there are parts that are no literals, but at least one. Every call has arguments, at most
one of which is no literal, and every call but the innermost begins with that one. -/
theorem concatenation_groups (location : Option Location) (comments : List Comment) (value : Text)
    (spelling : Option Text) (first : Node) (rest : List Node) :
    let head := Node.mk location comments (.string value spelling)
    ∃ groups : List (List Node),
      concatenation head (first :: rest) = groups.foldl concat head ∧
      groups.flatten = first :: rest ∧
      groups.length = max 1 (effects (head :: first :: rest)) ∧
      (∀ group ∈ groups, group ≠ [] ∧ effects group ≤ 1) ∧
      ∀ group ∈ groups.tail, ∃ opening arguments, group = opening :: arguments ∧
        isLiteral opening = false := by
  intro head
  obtain ⟨groups, has, flatten⟩ :=
    (Chain.hasGroups_first location comments value spelling first).foldl rest
  have literal : effects (head :: first :: rest) = effects (first :: rest) := rfl
  refine ⟨groups, has.node, flatten, by rw [has.length, flatten, literal]; rfl,
    fun group mem => ⟨has.grouped.filled group mem, has.grouped.single group mem⟩,
    fun group mem => ?_⟩
  obtain ⟨opening, begins, effect⟩ := has.grouped.opened group mem
  obtain ⟨arguments, eq⟩ := List.head?_eq_some_iff.1 begins
  exact ⟨opening, arguments, eq, effect⟩

end ElementWrapper.Lowering
