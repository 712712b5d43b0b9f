import ElementWrapper.Diagnostic
import ElementWrapper.Source.Tree

/-!
The check of a concrete tree for errors. A tree has an error if it stands for a missing token, if it
is a stretch of text that no rule accounts for, or if a tree below it has an error. `Document.check`
reports the first of them, a tree coming before the trees below it; it keeps the trees that are
still to be gone through on a stack and passes by those without errors.
-/

namespace ElementWrapper.Source

namespace Tree

/-- The kind of a stretch of text that no rule accounts for. -/
def errorKind : String := "ERROR"

/-- Whether the tree is an error itself. -/
def isError (tree : Tree) : Bool := tree.missing || tree.kind = errorKind

mutual

/-- Whether there is an error in the tree. -/
def hasError : Tree → Bool
  | node kind _ missing _ _ _ children => missing || kind = errorKind || haveError children

/-- Whether there is an error in a tree of a list. -/
def haveError : List Tree → Bool
  | [] => false
  | tree :: rest => hasError tree || haveError rest

end

theorem sizeOf_filter_append_le (test : Tree → Bool) (trees stack : List Tree) :
    sizeOf (trees.filter test ++ stack) ≤ sizeOf trees + sizeOf stack := by
  induction trees with
  | nil => simp
  | cons tree trees ih =>
    rw [List.filter_cons]
    split <;> simp <;> omega

/-- The first error that is met when the trees on a stack are gone through, the uppermost first. A
tree that is no error itself gives way to those right below it that have errors. -/
def firstError? : List Tree → Option Tree
  | [] => none
  | tree :: stack =>
    if tree.isError then some tree
    else firstError? (tree.children.filter hasError ++ stack)
termination_by stack => sizeOf stack
decreasing_by
  have below := sizeOf_filter_append_le hasError tree.children stack
  have smaller : sizeOf tree.children < sizeOf tree := by
    cases tree
    simp only [children, node.sizeOf_spec]
    omega
  simp only [List.cons.sizeOf_spec]
  omega

end Tree

namespace Document

/-- The position before a byte, its line and its column being counted by line feeds. -/
def point (d : Document) (byte : Nat) : Point :=
  let before := d.bytes.take byte
  ⟨byte, before.count 10, (before.reverse.takeWhile (· ≠ 10)).length⟩

/-- The number of code points that are shown of a text that no rule accounts for. -/
def shownLength : Nat := 40

/-- The diagnostic for a tree that is an error. -/
def diagnose (d : Document) (tree : Tree) : Diagnostic :=
  let message : Text :=
    if tree.missing then "Missing `" ++ Text.ofString tree.kind ++ "`."
    else
      let lines := Text.lines (Text.trim (d.text tree))
      "Unexpected syntax near `" ++ (lines.headD []).take shownLength ++ "`."
  { message, location := some (d.location tree) }

/-- The diagnostic for the first error in a tree. -/
def check (d : Document) (tree : Tree) : Option Diagnostic :=
  if tree.hasError then (Tree.firstError? [tree]).map d.diagnose else none

end Document

end ElementWrapper.Source
