import ElementWrapper.Source.Grammar.Statements

/-!
The parser of the language. `Rule.read` ties every goal to its rule. A goal is read within a bound
on how deep goals may lie in each other; `parse` takes a bound that no text can exceed, because
every few goals there is a token between them.
-/

namespace ElementWrapper.Source

namespace Rule

/-- A goal read by its rule, with a bound on the depth of goals. -/
def read : Nat → Goal → Reader Tree
  | 0, _ => failure
  | depth + 1, goal =>
    let run := read depth
    recalled goal <| match goal with
    | .statement => statementRule run
    | .block inExpression => blockRule run inExpression
    | .expression context level => expressionRule run context level
    | .leftHand => leftHand run
    | .pattern => only (pattern run)
    | .type ends => typeRule run ends
    | .primaryType ends => primaryType run ends
    | .classBody => classBodyRule run

/-- A whole text: an optional line for the shell, statements and comments. -/
def program (depth : Nat) : Reader Tree := do
  let before ← comments
  let first ← opt shellLine
  let between ← comments
  let body ← statements (read depth)
  let after ← comments
  require (← upcoming).isEmpty
  let finish := (← get).point
  match before ++ first ++ between ++ body ++ after with
  | [] => return .node "program" true false none finish finish []
  | first :: rest => return .node "program" true false none first.start finish (first :: rest)

end Rule

/-- The concrete tree of a source text, unless the text breaks the grammar. -/
def parse (source : List Char) : Option Tree :=
  let (result, _) := Rule.program (16 * (source.length + 4)) ⟨.zero, source⟩ ∅
  result.map (·.1)

end ElementWrapper.Source
