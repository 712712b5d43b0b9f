import ElementWrapper.Proofs.Text.Lines
import ElementWrapper.Source.Check

/-!
Which error of a concrete tree is reported. `Tree.inOrder` lists all trees in a tree, each of them
before the trees below it, with nothing left out. What the stack of the search stands for is the
forest of its trees: a step of the search leaves the first error of that forest as it is, since the
trees that it passes by hold none (`find?_forest_filter`), and so the search finds the first error
of the whole tree (`firstError?_eq_find?`). `check_first` says what is reported about it.
-/

namespace ElementWrapper

/-! ## Lines and blanks -/

namespace Text

/-- The first line of a text goes up to the first code point that ends a line. -/
theorem headD_lines (text : Text) :
    (lines text).headD [] = text.takeWhile fun c => !isLineEnd c := by
  induction text with
  | nil => rfl
  | cons c text ih =>
    cases ends : isLineEnd c with
    | false =>
      rw [lines_of_not_isLineEnd ends, List.takeWhile_cons_of_pos (by simp [ends]), ← ih]
      cases lines text <;> rfl
    | true =>
      rw [List.takeWhile_cons_of_neg (by simp [ends])]
      by_cases feed : c = .scalar '\r' ∧ text.head? = some (.scalar '\n')
      · obtain ⟨rfl, feed⟩ := feed
        obtain ⟨rest, rfl⟩ := List.head?_eq_some_iff.1 feed
        rw [lines_returnFeed, lines_feed]
        rfl
      · rw [lines_of_isLineEnd ends fun same head => feed ⟨same, head⟩]
        rfl

end Text

namespace Source

namespace Tree

mutual

/-- All trees in a tree, each before the trees below it. -/
def inOrder : Tree → List Tree
  | node kind named missing field start stop children =>
    node kind named missing field start stop children :: forest children

/-- All trees in the trees of a list. -/
def forest : List Tree → List Tree
  | [] => []
  | tree :: rest => inOrder tree ++ forest rest

end

variable {tree : Tree} {trees stack : List Tree}

theorem inOrder_eq (tree : Tree) : tree.inOrder = tree :: forest tree.children := by
  cases tree
  rfl

theorem forest_append (trees stack : List Tree) :
    forest (trees ++ stack) = forest trees ++ forest stack := by
  induction trees with
  | nil => rfl
  | cons tree trees ih => rw [List.cons_append, forest, forest, ih, List.append_assoc]

mutual

/-- A tree has an error if an error is in it. -/
theorem hasError_eq_any : (tree : Tree) → tree.hasError = tree.inOrder.any isError
  | node kind named missing field start stop children => by
    rw [hasError, inOrder, List.any_cons, haveError_eq_any children]
    rfl

theorem haveError_eq_any : (trees : List Tree) → haveError trees = (forest trees).any isError
  | [] => rfl
  | tree :: rest => by
    rw [haveError, forest, List.any_append, hasError_eq_any tree, haveError_eq_any rest]

end

/-- Trees without errors can be passed by. -/
theorem find?_forest_filter (trees : List Tree) :
    (forest (trees.filter hasError)).find? isError = (forest trees).find? isError := by
  induction trees with
  | nil => rfl
  | cons tree trees ih =>
    rw [List.filter_cons, forest, List.find?_append]
    split
    · rw [forest, List.find?_append, ih]
    · next free =>
      have none : tree.inOrder.find? isError = none := by
        rw [hasError_eq_any, List.any_eq_true] at free
        exact List.find?_eq_none.2 fun below mem error => free ⟨below, mem, error⟩
      rw [none, Option.none_or, ih]

/-- One step of the search. -/
theorem find?_forest_cons (own : tree.isError = false) (stack : List Tree) :
    (forest (tree.children.filter hasError ++ stack)).find? isError =
      (forest (tree :: stack)).find? isError := by
  rw [forest_append, forest, inOrder_eq, List.cons_append, List.find?_cons_of_neg (by simp [own]),
    List.find?_append, List.find?_append, find?_forest_filter]

/-- The search finds the first error of all trees on its stack. -/
theorem firstError?_eq_find? (stack : List Tree) :
    firstError? stack = (forest stack).find? isError := by
  fun_induction firstError? stack with
  | case1 => rfl
  | case2 tree stack own => rw [forest, inOrder_eq, List.cons_append, List.find?_cons_of_pos own]
  | case3 tree stack own ih => rw [ih, find?_forest_cons (Bool.eq_false_iff.2 own)]

end Tree

namespace Document

theorem check_eq_find? (d : Document) (tree : Tree) :
    d.check tree = (tree.inOrder.find? Tree.isError).map d.diagnose := by
  have whole : Tree.forest [tree] = tree.inOrder := List.append_nil _
  rw [check, Tree.firstError?_eq_find?, whole]
  split
  · rfl
  · next free =>
    rw [Tree.hasError_eq_any, List.any_eq_true] at free
    rw [List.find?_eq_none.2 fun below mem error => free ⟨below, mem, error⟩, Option.map_none]

/-- What is shown of a text that no rule accounts for: the beginning of the first line that is left
of it without the blanks at its ends. -/
theorem diagnose_of_not_missing (d : Document) {tree : Tree} (present : tree.missing = false) :
    ∃ shown, Text.IsBetweenBlanks shown (d.text tree) ∧
      d.diagnose tree =
        { message := "Unexpected syntax near `" ++
            (shown.takeWhile fun c => !Text.isLineEnd c).take 40 ++ "`."
          location := some (d.locationOf tree.start) } := by
  refine ⟨Text.trim (d.text tree), Text.isBetweenBlanks_trim _, ?_⟩
  rw [← Text.headD_lines, diagnose, present]
  rfl

/-- **The check reports the first error**. It reports one just if there is a tree that is missing or
that no rule accounts for. Of all such trees, each tree coming before the trees below it, it reports
the first, by its kind if it is missing and else by at most forty code points of the first line that
is left of its text without the blanks at its ends, at the place where the tree begins. -/
theorem check_first (d : Document) (tree : Tree) :
    ((d.check tree).isSome ↔ ∃ part ∈ tree.inOrder, part.missing ∨ part.kind = "ERROR") ∧
    ∀ diagnostic, d.check tree = some diagnostic → ∃ before error after,
      tree.inOrder = before ++ error :: after ∧
      (∀ part ∈ before, ¬ (part.missing ∨ part.kind = "ERROR")) ∧
      (error.missing = true ∧ diagnostic =
          { message := "Missing `" ++ Text.ofString error.kind ++ "`."
            location := some (d.locationOf error.start) } ∨
        error.missing = false ∧ error.kind = "ERROR" ∧
          ∃ shown, Text.IsBetweenBlanks shown (d.text error) ∧ diagnostic =
            { message := "Unexpected syntax near `" ++
                (shown.takeWhile fun c => !Text.isLineEnd c).take 40 ++ "`."
              location := some (d.locationOf error.start) }) := by
  have isError (part : Tree) : part.isError ↔ part.missing ∨ part.kind = "ERROR" := by
    rw [Tree.isError, Bool.or_eq_true, decide_eq_true_eq]
    rfl
  rw [check_eq_find?]
  constructor
  · rw [Option.isSome_map, List.find?_isSome]
    simp only [isError]
  · intro diagnostic found
    obtain ⟨error, first, rfl⟩ := Option.map_eq_some_iff.1 found
    obtain ⟨own, before, after, split, earlier⟩ := List.find?_eq_some_iff_append.1 first
    refine ⟨before, error, after, split, fun part mem => ?_, ?_⟩
    · rw [← isError]
      simpa using earlier part mem
    · cases missing : error.missing with
      | true =>
        refine .inl ⟨rfl, ?_⟩
        rw [diagnose, missing]
        rfl
      | false =>
        obtain lacks | kind := (isError error).1 own
        · rw [missing] at lacks
          cases lacks
        · exact .inr ⟨rfl, kind, d.diagnose_of_not_missing missing⟩

end Document

end Source

end ElementWrapper
