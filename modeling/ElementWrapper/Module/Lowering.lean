import ElementWrapper.Module.Traversal
import ElementWrapper.Literal.Cooked

/-!
Template literals as calls of `concat` on a string. A template becomes the list of its parts, the
cooked pieces and the substitutions that are not empty, with a string in front; `concatenation`
joins the parts into a chain of calls. Every literal joins the running call, and so does the first
part that is none; every later one begins a call of its own, so that each substitution is turned
into a string before the next is evaluated.
-/

namespace ElementWrapper.Lowering

open Literal (EscapeError cook)

/-- A literal, whose evaluation has no effect. -/
def isLiteral (node : Node) : Bool :=
  match node.form with
  | .string .. | .number .. | .boolean .. | .null | .template .. => true
  | _ => false

/-- A chain of calls of `concat`, and whether the running call may still take a part that is no
literal. -/
structure Chain where
  node : Node
  available : Bool

/-- A call of `concat` with one argument. -/
def concatCall (target argument : Node) : Node :=
  .of (.call (.of (.member target (.identifier "concat") false)) [argument])

/-- The chain with one more part. -/
def Chain.push (chain : Chain) (part : Node) : Chain :=
  let joins := isLiteral part || chain.available
  let available := chain.available && isLiteral part
  match chain.node, joins with
  | .mk location comments (.call callee arguments), true =>
    ⟨.mk location comments (.call callee (arguments ++ [part])), available⟩
  | target, _ => ⟨concatCall target part, available⟩

/-- The parts joined into one expression, the first one at the head. -/
def concatenation (head : Node) (parts : List Node) : Node :=
  (parts.foldl Chain.push ⟨head, true⟩).node

/-- A string literal without a character. -/
def isEmptyString (node : Node) : Bool :=
  match node.stringValue? with
  | some value => value.isEmpty
  | none => false

/-- The parts of a template in order: pieces and substitutions that are not empty. -/
def parts : (quasis expressions : List Node) → Except EscapeError (List Node)
  | [], _ => .ok []
  | quasi :: quasis, expressions => do
    let cooked ← cook quasi.form.quasiSource
    let piece := if cooked.isEmpty then [] else [Node.string cooked]
    let substitution := expressions.head?.toList.filter (!isEmptyString ·)
    return piece ++ substitution ++ (← parts quasis expressions.tail)

/-- The expression that stands for a list of parts. -/
def ofParts : List Node → Node
  | [] => Node.string []
  | head :: rest =>
    if head.stringValue?.isSome then concatenation head rest
    else concatenation (Node.string []) (head :: rest)

/-- A template is replaced by the concatenation of its parts; any other node stays. -/
def lowerTemplate (node : Node) : Except EscapeError Node :=
  match node with
  | .mk location comments (.template quasis expressions) => do
    let .mk _ _ form := ofParts (← parts quasis expressions)
    return .mk location comments form
  | node => .ok node

/-- The tree with every template literal lowered, innermost first. -/
def lower (node : Node) : Except EscapeError Node := node.rebuild lowerTemplate

end ElementWrapper.Lowering
