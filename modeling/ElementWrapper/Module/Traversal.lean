import ElementWrapper.Module.Node

/-!
The two ways to go through a module. `Node.visits` lists every node with its parent, parents before
children; `Node.rebuild` puts new nodes in place of old ones, children before parents. Both take the
subtrees of a node in the order of `Form.children`.
-/

namespace ElementWrapper

/-- A node met on a walk and the node it was reached from. -/
structure Visit where
  node : Node
  parent : Option Node

namespace Node

/-- The nodes of a tree with their parents, parents first. -/
def visitsBelow (node : Node) : Option Node → List Visit :=
  node.fold fun location comments form parent =>
    let self := mk location comments (form.map (·.1))
    ⟨self, parent⟩ :: form.children.flatMap fun child => child.2 (some self)

/-- The visits of a walk from the root. -/
def visits (root : Node) : List Visit := root.visitsBelow none

/-- The tree with every node replaced by what `replace` makes of it after its subtrees. -/
def rebuild {m : Type → Type} [Monad m] (replace : Node → m Node) (node : Node) : m Node :=
  node.fold fun location comments form => do
    replace (mk location comments (← form.traverse (·.2)))

/-! ## Renaming -/

/-- A log of the names and numbers that a renaming meets, last first. -/
abbrev RenameLog := List Text

/-- An identifier gets its new name, a number becomes the string of its digits, and each is
noted. -/
def renameStep (names : Text → Text) (node : Node) : StateM RenameLog Node :=
  match node.form with
  | .identifier name => do
    modify (name :: ·)
    return identifier (names name)
  | .number spelling => do
    modify (spelling :: ·)
    return string spelling
  | _ => return node

/-- The renamed tree, and the names and numbers in the order they were met. -/
def rename (names : Text → Text) (node : Node) : Node × List Text :=
  let (renamed, log) := (node.rebuild (renameStep names)).run []
  (renamed, log.reverse)

end Node

end ElementWrapper
