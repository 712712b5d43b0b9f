import ElementWrapper.Proofs.Files.Targets

/-!
Resolution of routes. `Route.resolve` takes `..` back by the names of a route alone. As long as no
step is empty, which every operation on routes keeps so, it gives the place that the steps name
(`steps_resolve`), so that routes can be compared by it.
-/

namespace ElementWrapper

/-! ## Names -/

/-- A name that a directory can give: it is not empty, no separator is in it, and it is neither of
the steps `.` and `..`. -/
def Path.IsName (name : Text) : Prop :=
  name ≠ [] ∧ separator ∉ name ∧ name ≠ here ∧ name ≠ up

instance (name : Text) : Decidable (Path.IsName name) :=
  inferInstanceAs
    (Decidable (name ≠ [] ∧ Path.separator ∉ name ∧ name ≠ Path.here ∧ name ≠ Path.up))

theorem FileTree.straight_of_isName {steps : List Text} (h : ∀ name ∈ steps, Path.IsName name) :
    Straight steps :=
  ⟨fun mem => (h _ mem).2.2.2 rfl, fun mem => (h _ mem).2.2.1 rfl⟩

namespace Text

variable {separator : CodePoint} {piece : Text}

theorem splitOn_of_notMem (free : separator ∉ piece) : splitOn separator piece = [piece] := by
  induction piece with
  | nil => rfl
  | cons c piece ih =>
    obtain ⟨ne, free⟩ := List.ne_and_not_mem_of_not_mem_cons free
    rw [splitOn, if_neg (Ne.symm ne), ih free]

theorem splitOn_append (free : separator ∉ piece) (rest : Text) :
    splitOn separator (piece ++ separator :: rest) = piece :: splitOn separator rest := by
  induction piece with
  | nil => rw [List.nil_append, splitOn, if_pos rfl]
  | cons c piece ih =>
    obtain ⟨ne, free⟩ := List.ne_and_not_mem_of_not_mem_cons free
    rw [List.cons_append, splitOn, if_neg (Ne.symm ne), ih free]

/-- Pieces without the separator can be told apart again. -/
theorem splitOn_join {pieces : List Text} (some : pieces ≠ [])
    (free : ∀ piece ∈ pieces, separator ∉ piece) :
    splitOn separator (join [separator] pieces) = pieces := by
  induction pieces with
  | nil => contradiction
  | cons piece pieces ih =>
    obtain ⟨first, rest⟩ := List.forall_mem_cons.1 free
    cases pieces with
    | nil => exact splitOn_of_notMem first
    | cons next pieces =>
      rw [join, List.append_assoc, List.singleton_append, splitOn_append first, ih nofun rest]
      nofun

end Text

/-! ## Steps -/

namespace FileTree

variable {place : Place} {step : Text} {steps : List Text}

theorem up_notMem_next (below : Path.up ∉ place) : Path.up ∉ next place step := by
  rw [next]
  split
  · exact fun mem => below (List.mem_of_mem_dropLast mem)
  · next ne =>
    split
    · exact below
    · simp [below, Ne.symm ne]

/-- A step by names alone is a step in the tree. -/
theorem step_eq_next (named : step ≠ []) (below : Path.up ∉ place) :
    Path.step true place.reverse step = (next place step).reverse := by
  rw [Path.step.eq_def, next]
  by_cases here : step = Path.here
  · have ne : step ≠ Path.up := here ▸ by decide
    simp [here, show Path.here ≠ Path.up by decide]
  rw [if_neg (not_or.2 ⟨named, here⟩)]
  by_cases up : step = Path.up
  · rw [if_pos up, if_pos up]
    cases place using List.reverseRecOn with
    | nil => rfl
    | append_singleton place last =>
      have ne : last ≠ Path.up := fun same => below (by simp [same])
      simp [ne]
  · rw [if_neg up, if_neg up, if_neg here, List.reverse_append, List.reverse_singleton,
      List.singleton_append]

theorem foldl_step (named : [] ∉ steps) (below : Path.up ∉ place) :
    steps.foldl (Path.step true) place.reverse = (steps.foldl next place).reverse := by
  induction steps generalizing place with
  | nil => rfl
  | cons step steps ih =>
    obtain ⟨ne, named⟩ := List.ne_and_not_mem_of_not_mem_cons named
    rw [List.foldl_cons, List.foldl_cons, step_eq_next (Ne.symm ne) below,
      ih named (up_notMem_next below)]

end FileTree

/-- Steps leave no empty name behind. -/
theorem Path.nil_notMem_foldl_step {above steps : List Text} (named : [] ∉ above) :
    [] ∉ steps.foldl (Path.step true) above := by
  induction steps generalizing above with
  | nil => exact named
  | cons step steps ih =>
    refine ih ?_
    rw [Path.step.eq_def]
    split
    · exact named
    · next ne =>
      split
      · split
        · exact named
        · split <;> simp_all
      · exact List.not_mem_cons_of_ne_of_not_mem (fun same => ne (.inl same.symm)) named

/-! ## Routes -/

namespace Route

variable {route continuation : Route}

/-- No step is empty. -/
def IsClean (route : Route) : Prop := [] ∉ route.steps

theorem isClean_ofText (path : Text) : (ofText path).IsClean :=
  fun mem => (of_decide_eq_true (List.mem_filter.1 mem).2).1 rfl

theorem isClean_resolve (route start : Route) : (route.resolve start).IsClean :=
  fun mem => Path.nil_notMem_foldl_step List.not_mem_nil (List.mem_reverse.1 mem)

theorem IsClean.join (first : route.IsClean) (second : continuation.IsClean) :
    (route ++ continuation).IsClean := by
  change (route.join continuation).IsClean
  rw [Route.join]
  split
  · exact second
  · exact fun mem => (List.mem_append.1 mem).elim first second

theorem IsClean.parent (clean : route.IsClean) : route.parent.IsClean :=
  fun mem => clean (List.mem_of_mem_dropLast mem)

theorem IsClean.of_below? {directory rest : Route} (clean : route.IsClean)
    (below : directory.below? route = some rest) : rest.IsClean := by
  rw [below?] at below
  split at below
  · cases below
    exact fun mem => clean (List.mem_of_mem_drop mem)
  · cases below

theorem splitSuffix_ne_nil {name : Text} (named : name ≠ []) : (splitSuffix name).1 ≠ [] := by
  rw [splitSuffix]
  split
  · exact named
  · next stem => exact fun empty => stem (.inl (List.isEmpty_iff.2 empty))

/-- A route that had no empty step has none with another suffix. -/
theorem IsClean.of_withSuffix? {suffix : Text} {output : Route} (clean : route.IsClean)
    (named : route.withSuffix? suffix = some output) : output.IsClean := by
  rw [withSuffix?] at named
  split at named
  · next valid =>
    cases named
    have steps : route.steps ≠ [] := by
      simpa using (Bool.and_eq_true_iff.1 valid).2
    have last : route.name ≠ [] := by
      rw [name, List.getLast?_eq_some_getLast steps]
      exact fun empty => clean (empty ▸ List.getLast_mem steps)
    refine fun mem => (List.mem_append.1 mem).elim clean.parent fun mem => ?_
    exact splitSuffix_ne_nil last
      (List.append_eq_nil_iff.1 (List.mem_singleton.1 mem).symm).1
  · cases named

end Route

namespace Session

variable {session : Session} {route start : Route}

/-- A route resolved from the working directory has its target for its steps. -/
theorem steps_resolve (working : ∀ name ∈ session.working, Path.IsName name)
    (starts : start.steps = session.working) (clean : route.IsClean) :
    (route.resolve start).steps = session.target route := by
  have straight := FileTree.straight_of_isName working
  have named : [] ∉ session.working := fun mem => (working _ mem).1 rfl
  have joined : (start ++ route).steps.foldl FileTree.next [] = session.target route := by
    change (start.join route).steps.foldl FileTree.next [] = _
    rw [Route.join, target, origin]
    split
    · rfl
    · rw [List.foldl_append, starts, FileTree.foldl_next_of_straight straight]
      rfl
  have startClean : start.IsClean := fun mem => named (starts ▸ mem)
  have folded := FileTree.foldl_step (startClean.join clean) List.not_mem_nil
  rw [joined] at folded
  exact (congrArg List.reverse folded).trans (List.reverse_reverse _)

/-- The text of a route to a place leads to that place. -/
theorem steps_ofText_routeTo {place : Place} (named : ∀ name ∈ place, Path.IsName name) :
    (Route.ofText (routeTo place).text).steps = place := by
  have text : (routeTo place).text = Path.separator :: Text.join [Path.separator] place := rfl
  have kept : place.filter (fun step => step ≠ [] ∧ step ≠ Path.here) = place :=
    List.filter_eq_self.2 fun name mem => by simp [(named name mem).1, (named name mem).2.2.1]
  rw [text, Route.ofText, Text.splitOn, if_pos rfl, List.filter_cons_of_neg (by simp)]
  cases place with
  | nil => rfl
  | cons first rest =>
    rw [Text.splitOn_join (List.cons_ne_nil first rest) fun name mem => (named name mem).2.1]
    exact kept

end Session

end ElementWrapper
