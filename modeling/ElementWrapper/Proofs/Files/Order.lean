import ElementWrapper.Proofs.Path.Containment
import Mathlib.Order.Lex
import Mathlib.Data.List.Lex

/-!
The order of routes. Parts are compared by the numbers of their code points, and routes by their
parts, so that a route comes before another one just if its numbers do (`le_iff`): the order of
routes is a linear order of lists. Two routes with the same numbers are one route if no step has a
separator in it, since it is then clear whether the first part is a root. A list of such routes in
their order, each of them once, is determined by its members (`eq_of_pairwise_before`).
-/

namespace ElementWrapper

/-- A code point is known by its number: no character has the number of a surrogate. -/
theorem CodePoint.toNat_injective : Function.Injective CodePoint.toNat := by
  -- No character has the number of a surrogate.
  have apart (c : Char) (offset : Fin 2048) : c.toNat ≠ firstSurrogate + offset := by
    have valid := c.valid
    have := offset.isLt
    simp only [UInt32.isValidChar, Nat.isValidChar] at valid
    simp only [firstSurrogate, Char.toNat]
    omega
  rintro (c | offset) (d | other) same
  · exact congrArg scalar (Char.toNat_inj.1 same)
  · exact absurd same (apart c other)
  · exact absurd same.symm (apart d offset)
  · exact congrArg surrogate (Fin.ext (Nat.add_left_cancel same))

section

variable {α : Type} [LinearOrder α]

theorem nil_le_list (rest : List α) : [] ≤ rest := not_lt.1 (List.not_lt_nil rest)

theorem not_cons_le_nil (first : α) (rest : List α) : ¬ first :: rest ≤ [] :=
  not_le.2 (.nil)

theorem cons_le_cons_iff {first other : α} {rest more : List α} :
    first :: rest ≤ other :: more ↔ first < other ∨ first = other ∧ rest ≤ more := by
  rw [le_iff_lt_or_eq, le_iff_lt_or_eq, List.cons_lt_cons_iff, List.cons_eq_cons, and_or_left,
    or_assoc]

end

/-- The numbers of the code points of a text. -/
def Text.numbers (text : Text) : List Nat := text.map CodePoint.toNat

theorem Text.numbers_injective : Function.Injective Text.numbers :=
  List.map_injective_iff.2 CodePoint.toNat_injective

/-- Texts are compared like the lists of the numbers of their code points. -/
theorem Text.le_iff (a b : Text) : Text.le a b ↔ a.numbers ≤ b.numbers := by
  induction a generalizing b with
  | nil => simp [le, numbers, nil_le_list]
  | cons c a ih =>
    cases b with
    | nil => simp [le, numbers, not_cons_le_nil]
    | cons d b =>
      have step : numbers (c :: a) ≤ numbers (d :: b) ↔
          c.toNat < d.toNat ∨ c.toNat = d.toNat ∧ numbers a ≤ numbers b := cons_le_cons_iff
      rw [step, le, ← ih]
      obtain less | same | more := lt_trichotomy c.toNat d.toNat
      · simp [less]
      · simp [same]
      · simp [more, more.not_gt, more.ne']

namespace Route

/-- The numbers of the parts of a route. -/
def numbers (route : Route) : List (List Nat) := route.parts.map Text.numbers

/-- Routes are compared name by name, and names by the numbers of their code points. -/
theorem partsLe_iff (a b : List Text) :
    partsLe a b ↔ a.map Text.numbers ≤ b.map Text.numbers := by
  induction a generalizing b with
  | nil => simp [partsLe, nil_le_list]
  | cons first a ih =>
    cases b with
    | nil => simp [partsLe, not_cons_le_nil]
    | cons other b =>
      rw [List.map_cons, List.map_cons, cons_le_cons_iff, partsLe, ← ih]
      split
      · next same => simp [same]
      · next ne =>
        have ne : first.numbers ≠ other.numbers := fun same => ne (Text.numbers_injective same)
        rw [Text.le_iff, lt_iff_le_and_ne]
        simp [ne]

theorem le_iff (a b : Route) : a.le b ↔ a.numbers ≤ b.numbers := partsLe_iff a.parts b.parts

theorem trans {a b c : Route} (first : a.le b) (second : b.le c) : a.le c :=
  (le_iff a c).2 (((le_iff a b).1 first).trans ((le_iff b c).1 second))

theorem total (a b : Route) : a.le b ∨ b.le a := by
  rw [le_iff, le_iff]
  exact le_total a.numbers b.numbers

/-- No step has a separator in it, and the root is made of separators. -/
structure IsProper (route : Route) : Prop where
  root : ∀ c ∈ route.root, c = Path.separator
  steps : ∀ step ∈ route.steps, Path.separator ∉ step

/-- Which part is the root can be told from the parts. -/
theorem IsProper.eq_of_parts {a b : Route} (ha : a.IsProper) (hb : b.IsProper)
    (same : a.parts = b.parts) : a = b := by
  -- A root begins with a separator, which no step has.
  have apart {a b : Route} (ha : a.IsProper) (hb : b.IsProper) (rooted : a.root ≠ []) :
      a.root :: a.steps ≠ b.steps := by
    intro same
    obtain ⟨c, rest, root⟩ := List.exists_cons_of_ne_nil rooted
    have own : a.root ∈ b.steps := same ▸ List.mem_cons_self
    have first : c ∈ a.root := root ▸ List.mem_cons_self
    exact hb.steps _ own (ha.root c first ▸ first)
  have parts {route : Route} : route.parts =
      if route.root = [] then route.steps else route.root :: route.steps := by
    cases none : route.root <;> simp [Route.parts, isRooted, none]
  rw [parts, parts] at same
  obtain ⟨rootA, stepsA⟩ := a
  obtain ⟨rootB, stepsB⟩ := b
  split at same
  · next noneA =>
    split at same
    · next noneB => exact congrArg₂ Route.mk (noneA.trans noneB.symm) same
    · next rootedB => exact absurd same.symm (apart hb ha rootedB)
  · next rootedA =>
    split at same
    · exact absurd same (apart ha hb rootedA)
    · obtain ⟨root, steps⟩ := List.cons.inj same
      exact congrArg₂ Route.mk root steps

theorem IsProper.eq_of_numbers {a b : Route} (ha : a.IsProper) (hb : b.IsProper)
    (same : a.numbers = b.numbers) : a = b :=
  ha.eq_of_parts hb (List.map_injective_iff.2 Text.numbers_injective same)

theorem isProper_ofText (path : Text) : (ofText path).IsProper where
  root c mem := by
    rw [ofText, Path.root.eq_def] at mem
    split at mem <;> simp_all [Path.separator, Text.ofString, Text.ofChars]
  steps step mem := Text.notMem_of_mem_splitOn (List.mem_filter.1 mem).1

/-! ## Lists in order -/

/-- One route comes before another one: its part is less where the first parts differ, or it has no
part there. -/
def Before (a b : Route) : Prop := a.numbers < b.numbers

theorem pairwise_before {routes : List Route} (proper : ∀ route ∈ routes, route.IsProper)
    (distinct : routes.Nodup) (sorted : routes.Pairwise fun a b => a.le b) :
    routes.Pairwise Before :=
  (sorted.and distinct).imp_of_mem fun {a b} ha hb ⟨le, ne⟩ =>
    lt_of_le_of_ne ((le_iff a b).1 le) fun same =>
      ne ((proper a ha).eq_of_numbers (proper b hb) same)

/-- Lists in order are the same if they have the same members. -/
theorem eq_of_pairwise_before {routes others : List Route} (h : routes.Pairwise Before)
    (ho : others.Pairwise Before) (same : ∀ route, route ∈ routes ↔ route ∈ others) :
    routes = others := by
  have nodup {routes : List Route} (h : routes.Pairwise Before) : routes.Nodup :=
    h.imp fun less => ne_of_apply_ne numbers (ne_of_lt less)
  exact ((List.perm_ext_iff_of_nodup (nodup h) (nodup ho)).2 same).eq_of_pairwise
    (fun _ _ _ _ first second => absurd first (lt_asymm second)) h ho

end Route

end ElementWrapper
