import ElementWrapper.Proofs.Files.Resolution
import ElementWrapper.Specifier

/-!
When a specifier leads to a place inside of a directory. The answer is read off the text of the way
from the directory to the place, and `isInside_iff` says what it comes to: the names of the
directory begin the names of the place, and the next name does not begin with two dots.

Both paths are absolute, so that the names in the text of a normal form are its components
(`names_normalize`), and a way that goes up begins with `..`. A way that only goes down can begin
so as well, if the first name on it does: such a place counts as outside.
-/

namespace ElementWrapper

namespace Text

variable {separator : CodePoint} {piece text : Text}

/-- No piece of a text that was split holds the separator. -/
theorem notMem_of_mem_splitOn (mem : piece ∈ splitOn separator text) : separator ∉ piece := by
  induction text generalizing piece with
  | nil =>
    rw [List.mem_singleton.1 mem]
    exact List.not_mem_nil
  | cons c text ih =>
    rw [splitOn] at mem
    split at mem
    · rcases List.mem_cons.1 mem with rfl | mem
      · exact List.not_mem_nil
      · exact ih mem
    · next ne =>
      split at mem
      · next first others eq =>
        rcases List.mem_cons.1 mem with rfl | mem
        · exact List.not_mem_cons_of_ne_of_not_mem (Ne.symm ne) (ih (eq ▸ List.mem_cons_self))
        · exact ih (eq ▸ List.mem_cons_of_mem _ mem)
      · rw [List.mem_singleton.1 mem, List.mem_singleton]
        exact Ne.symm ne

/-- A piece without the separator begins what is joined just if it begins the first part. -/
theorem prefix_join_iff (free : separator ∉ piece) (first : Text) (rest : List Text) :
    piece <+: join [separator] (first :: rest) ↔ piece <+: first := by
  cases rest with
  | nil => rfl
  | cons next rest =>
    have split : join [separator] (first :: next :: rest) =
        first ++ separator :: join [separator] (next :: rest) := by
      rw [join, List.append_assoc, List.singleton_append]
      simp
    rw [split]
    refine ⟨fun begins => ?_, fun begins => begins.trans (List.prefix_append _ _)⟩
    obtain within | longer := List.prefix_or_prefix_of_prefix begins (List.prefix_append first _)
    · exact within
    · obtain ⟨_ | ⟨c, tail⟩, rfl⟩ := longer
      · rw [List.append_nil]
      · -- The piece would go on over the separator.
        have same := (List.cons_prefix_cons.1 ((List.prefix_append_right_inj first).1 begins)).1
        exact absurd (List.mem_append_right first (same ▸ List.mem_cons_self)) free

end Text

namespace Path

variable {path : Text}

/-! ## Names in a path -/

/-- The names between the separators of a path. -/
def names (path : Text) : List Text := (Text.splitOn separator path).filter (!·.isEmpty)

theorem names_cons_separator (path : Text) : names (separator :: path) = names path := by
  rw [names, Text.splitOn, if_pos rfl, List.filter_cons_of_neg (by simp)]
  rfl

theorem names_join {steps : List Text} (named : ∀ name ∈ steps, name ≠ [] ∧ separator ∉ name) :
    names (Text.join [separator] steps) = steps := by
  cases steps with
  | nil => rfl
  | cons first rest =>
    rw [names, Text.splitOn_join (List.cons_ne_nil first rest) fun name mem => (named name mem).2]
    exact List.filter_eq_self.2 fun name mem => by simp [(named name mem).1]

/-- A step up or down leaves proper names only. -/
theorem isName_step {above : List Text} {component : Text} (named : ∀ name ∈ above, IsName name)
    (free : separator ∉ component) : ∀ name ∈ step true above component, IsName name := by
  rw [step.eq_def]
  split
  · exact named
  · next some =>
    split
    · split
      · simp
      · next last rest =>
        rw [if_neg (named last List.mem_cons_self).2.2.2]
        exact fun name mem => named name (List.mem_cons_of_mem _ mem)
    · next ne =>
      obtain ⟨first, second⟩ := not_or.1 some
      exact List.forall_mem_cons.2 ⟨⟨first, free, second, ne⟩, named⟩

/-- No step is left in an absolute path that is normal. -/
theorem isName_components (rooted : isAbsolute path) : ∀ name ∈ components path, IsName name := by
  intro name mem
  rw [components, rooted, List.mem_reverse] at mem
  revert name
  refine List.foldlRecOn (motive := fun above => ∀ name ∈ above, IsName name) _ _ (by nofun) ?_
  intro above named component mem
  exact isName_step named (Text.notMem_of_mem_splitOn mem)

theorem named_components (rooted : isAbsolute path) :
    ∀ name ∈ components path, name ≠ [] ∧ separator ∉ name :=
  fun name mem => ⟨(isName_components rooted name mem).1, (isName_components rooted name mem).2.1⟩

theorem root_cases (rooted : isAbsolute path) :
    root path = [separator] ∨ root path = [separator, separator] := by
  obtain ⟨rest, rfl⟩ := List.head?_eq_some_iff.1 (of_decide_eq_true rooted)
  unfold root
  split
  · exact .inl rfl
  · exact .inr rfl
  · exact .inl rfl
  · next single => exact absurd rfl (single rest)

theorem normalize_eq (rooted : isAbsolute path) :
    normalize path = root path ++ Text.join [separator] (components path) := by
  have some : (root path ++ Text.join [separator] (components path)).isEmpty = false := by
    obtain one | two := root_cases rooted
    · rw [one]; rfl
    · rw [two]; rfl
  simp only [normalize, some, Bool.false_eq_true, if_false]

/-- The names in the normal form of an absolute path are its components. -/
theorem names_normalize (rooted : isAbsolute path) : names (normalize path) = components path := by
  rw [normalize_eq rooted]
  obtain one | two := root_cases rooted
  · rw [one, List.singleton_append, names_cons_separator, names_join (named_components rooted)]
  · rw [two, List.cons_append, List.singleton_append, names_cons_separator, names_cons_separator,
      names_join (named_components rooted)]

/-! ## Absolute paths -/

theorem isAbsolute_normalize (rooted : isAbsolute path) : isAbsolute (normalize path) := by
  rw [normalize_eq rooted]
  obtain one | two := root_cases rooted
  · rw [one]; rfl
  · rw [two]; rfl

theorem isAbsolute_append {path : Text} (rooted : isAbsolute path) (more : Text) :
    isAbsolute (path ++ more) := by
  obtain ⟨rest, rfl⟩ := List.head?_eq_some_iff.1 (of_decide_eq_true rooted)
  rfl

theorem isAbsolute_join (rooted : isAbsolute path) (continuation : Text) :
    isAbsolute (join path continuation) := by
  rw [join]
  split
  · assumption
  · split
    · exact isAbsolute_append rooted _
    · exact isAbsolute_append (isAbsolute_append rooted _) _

theorem isAbsolute_of_begins {path whole : Text} (begins : path <+: whole) (some : path ≠ [])
    (rooted : isAbsolute whole) : isAbsolute path := by
  obtain ⟨rest, rfl⟩ := begins
  obtain ⟨first, more, rfl⟩ := List.exists_cons_of_ne_nil some
  exact rooted

theorem isAbsolute_trimSlashes (rooted : isAbsolute path) : isAbsolute (trimSlashes path) := by
  simp only [trimSlashes]
  split
  · exact rooted
  · next some =>
    refine isAbsolute_of_begins ?_ (by simpa using some) rooted
    exact List.reverse_suffix.1 (by simpa [Text.trimEnd] using List.dropWhile_suffix _)

/-- The last slash of an absolute path is not before its first one. -/
theorem isAbsolute_directory (rooted : isAbsolute path) : isAbsolute (directory path) := by
  refine isAbsolute_trimSlashes (isAbsolute_of_begins (List.take_prefix _ _) ?_ rooted)
  have shorter : (base path).length < path.length := by
    rw [base, List.length_reverse, ← @List.length_reverse _ path]
    refine lt_of_le_of_ne (List.takeWhile_prefix _).length_le fun same => ?_
    have slash : separator ∈ path.reverse :=
      List.mem_reverse.2 (List.mem_of_head? (of_decide_eq_true rooted))
    have all := List.takeWhile_eq_self_iff.1 ((List.takeWhile_prefix _).eq_of_length same) _ slash
    simp at all
  simp only [ne_eq, List.take_eq_nil_iff, not_or]
  exact ⟨by omega, fun empty => by simp [empty] at shorter⟩

/-! ## The way from one path to another -/

@[simp] theorem sharedLength_nil_left (second : List Text) : sharedLength [] second = 0 := by
  cases second <;> rfl

@[simp] theorem sharedLength_nil_right (first : List Text) : sharedLength first [] = 0 := by
  cases first <;> rfl

@[simp] theorem sharedLength_cons_self (name : Text) (first second : List Text) :
    sharedLength (name :: first) (name :: second) = sharedLength first second + 1 := if_pos rfl

theorem sharedLength_cons_of_ne {a b : Text} (ne : a ≠ b) (first second : List Text) :
    sharedLength (a :: first) (b :: second) = 0 := if_neg ne

/-- Two lists are compared up to the end of one of them or to the first names that differ. -/
theorem sharedLength_induction {motive : List Text → List Text → Prop}
    (nil_left : ∀ second, motive [] second) (nil_right : ∀ first, motive first [])
    (same : ∀ name first second, motive first second → motive (name :: first) (name :: second))
    (differ : ∀ a first b second, a ≠ b → motive (a :: first) (b :: second))
    (first second : List Text) : motive first second := by
  induction first generalizing second with
  | nil => exact nil_left second
  | cons a first ih =>
    cases second with
    | nil => exact nil_right _
    | cons b second =>
      by_cases eq : a = b
      · exact eq ▸ same a first second (ih second)
      · exact differ a first b second eq

theorem sharedLength_le (first second : List Text) : sharedLength first second ≤ first.length := by
  induction first, second using sharedLength_induction with
  | nil_left | nil_right => simp
  | same name first second ih => simpa using ih
  | differ a first b second ne => simp [sharedLength_cons_of_ne ne]

theorem sharedLength_eq_length_iff {first second : List Text} :
    sharedLength first second = first.length ↔ first <+: second := by
  induction first, second using sharedLength_induction with
  | nil_left => simp
  | nil_right first => simp [eq_comm]
  | same name first second ih => simp [ih]
  | differ a first b second ne => simp [sharedLength_cons_of_ne ne, ne]

/-- A way begins with two dots if it goes up, and if it goes down to a name that does so. -/
theorem prefix_relative_iff (target start : Text) : up <+: relative target start ↔
    ¬ (names start <+: names target ∧
      ∀ name ∈ (names target)[(names start).length]?, ¬ up <+: name) := by
  have way : relative target start =
      let shared := sharedLength (names start) (names target)
      let steps := List.replicate ((names start).length - shared) up ++ (names target).drop shared
      if steps.isEmpty then here else Text.join [separator] steps := rfl
  have free : separator ∉ up := by decide
  rw [way, ← sharedLength_eq_length_iff]
  dsimp only
  by_cases whole : sharedLength (names start) (names target) = (names start).length
  · rw [whole, Nat.sub_self, List.replicate_zero, List.nil_append]
    cases rest : (names target).drop (names start).length with
    | nil =>
      have none : (names target)[(names start).length]? = none := by
        rw [← List.head?_drop, rest, List.head?_nil]
      rw [none]
      exact iff_of_false (by decide) fun outside => outside ⟨rfl, nofun⟩
    | cons name others =>
      have next : (names target)[(names start).length]? = some name := by
        rw [← List.head?_drop, rest, List.head?_cons]
      rw [next, List.isEmpty_cons, if_neg Bool.false_ne_true, Text.prefix_join_iff free]
      simp
  · have least := sharedLength_le (names start) (names target)
    obtain ⟨more, eq⟩ : ∃ more, (names start).length - sharedLength (names start) (names target) =
        more + 1 := Nat.exists_eq_add_one.2 (by omega)
    rw [eq, List.replicate_succ, List.cons_append, List.isEmpty_cons, if_neg Bool.false_ne_true,
      Text.prefix_join_iff free]
    exact iff_of_true List.prefix_rfl fun inside => whole inside.1

end Path

namespace Specifier

open ElementWrapper.Path

/-- **What lies inside a directory**: a specifier in a file leads inside just if the components of
the directory begin those of the place that the specifier leads to, and the component after them, if
there is one, does not begin with two dots. -/
theorem isInside_iff {start : Text} (rooted : isAbsolute start) (source filename folder : Text) :
    let target := components (join (directory (absolute start filename)) source)
    let within := components (join start folder)
    isInside start source filename folder ↔
      within <+: target ∧ ∀ name ∈ target[within.length]?, ¬ up <+: name := by
  intro target within
  have origin : isAbsolute (directory (absolute start filename)) :=
    isAbsolute_directory (isAbsolute_normalize (isAbsolute_join rooted filename))
  have reached : names (absolute (directory (absolute start filename)) source) = target :=
    names_normalize (isAbsolute_join origin source)
  have root : names (absolute start folder) = within :=
    names_normalize (isAbsolute_join rooted folder)
  have decided := prefix_relative_iff (absolute (directory (absolute start filename)) source)
    (absolute start folder)
  rw [reached, root] at decided
  rw [isInside, Bool.not_eq_true', ← Bool.not_eq_true, List.isPrefixOf_iff_prefix, decided,
    Classical.not_not]

/-- A directory inside whose name begins with two dots counts as outside. -/
theorem not_isInside_dottedDirectory :
    let target :=
      components (join (directory (absolute "/" "src/panel/panel.ts")) "./..drafts/base")
    let within := components (join "/" "src/panel")
    isAbsolute "/" ∧ within <+: target ∧
      ¬ isInside "/" "./..drafts/base" "src/panel/panel.ts" "src/panel" := by
  intro target within
  have begins : within <+: target := by decide
  have next : target[within.length]? = some "..drafts" := by decide
  refine ⟨rfl, begins, fun inside => ?_⟩
  have free := ((isInside_iff rfl _ _ _).1 inside).2 "..drafts" next
  exact free (by decide)

end Specifier

end ElementWrapper
