import ElementWrapper.Literal.Cooked
import ElementWrapper.Proofs.Module.Recursion

/-!
What an expression means. `evaluate` follows the order that the language prescribes and runs in any
monad, so that equal meanings have the same value and the same effects in the same order. An
`Environment` gives the meaning of all that the tree leaves open: of variables, of the constructs
that are kept as their text, of calls, and of conversions that may run code.

As in the standard of the language, an expression comes to a `Reference` first, so that a call knows
the value it is a method of and an assignment the place to change.
-/

namespace ElementWrapper

namespace Environment

/-- A value; `ω` holds the objects, the symbols and all functions but one. -/
inductive Value (ω : Type) where
  | undefined
  | null
  | boolean (value : Bool)
  | number (spelling : Text)
  | string (text : Text)
  /-- The method `concat` of strings. -/
  | concat
  | other (value : ω)

/-- What an expression comes to before its value is taken. -/
inductive Reference (ω : Type) where
  | value (value : Value ω)
  | variable (name : Text)
  | property (base key : Value ω)
  /-- An entry of an object literal, with a key that may be computed. -/
  | entry (key value : Value ω) (computed : Bool)
  | other (reference : ω)

end Environment

open Environment in
/-- The meaning of what a tree leaves open. -/
structure Environment (m : Type → Type) (ω : Type) where
  /-- The text of the number with a spelling. -/
  numeral : Text → Text
  /-- A construct that is kept as its text. -/
  raw : (kind text : Text) → m (Reference ω)
  lookup : (name : Text) → m (Value ω)
  get : (base key : Value ω) → m (Value ω)
  resolve : ω → m (Value ω)
  assign : Reference ω → Value ω → m Unit
  /-- An assignment with an operator, which may leave out the evaluation of its right side. -/
  update : (operator : Text) → Reference ω → m (Value ω) → m (Value ω)
  call : (function this : Value ω) → List (Value ω) → m (Value ω)
  /-- The text of an object, a symbol or a function. -/
  convert : Value ω → m Text
  /-- The key that a value stands for. -/
  toKey : Value ω → m (Value ω)
  create : m (Value ω)
  define : (object : Value ω) → Reference ω → m Unit

namespace Environment

variable {m : Type → Type} [Monad m] {ω : Type} (env : Environment m ω)

/-- The value of a reference. The method `concat` of a string is found without an effect. -/
def value : Reference ω → m (Value ω)
  | .value value | .entry _ value _ => pure value
  | .variable name => env.lookup name
  | .property base key =>
    match base, key with
    | .string _, .string key =>
      if key = ("concat" : Text) then pure .concat else env.get base (.string key)
    | base, key => env.get base key
  | .other reference => env.resolve reference

/-- The text of a value, the conversion ToString. It has no effect on primitive values. -/
def toText : Value ω → m Text
  | .undefined => pure ("undefined" : Text)
  | .null => pure ("null" : Text)
  | .boolean value => pure (if value then "true" else "false" : Text)
  | .number spelling => pure (env.numeral spelling)
  | .string text => pure text
  | value => env.convert value

/-- The text of what a computation comes to. -/
def textOf (meaning : m (Reference ω)) : m Text := meaning >>= env.value >>= env.toText

/-- A call of a function that a reference led to. The method `concat` of a string appends the texts
of its arguments in order. -/
def invoke (callee : Reference ω) (function : Value ω) (arguments : List (Value ω)) :
    m (Value ω) :=
  match callee, function with
  | .property (.string text) _, .concat => do
    return .string (text ++ (← arguments.mapM env.toText).flatten)
  | .property base _, function => env.call function base arguments
  | _, function => env.call function .undefined arguments

/-- The pieces of a template with the texts of the substitutions between them. A substitution is
converted before the next one is evaluated. -/
def interleave : (pieces : List Text) → (substitutions : List (m (Reference ω))) → m Text
  | [], _ => pure []
  | piece :: pieces, substitutions => do
    let text ← match substitutions.head? with
      | some substitution => env.textOf substitution
      | none => pure []
    return piece ++ text ++ (← interleave pieces substitutions.tail)

/-- The key that a node is when it is not computed. -/
def plainKey (node : Node) : Value ω :=
  match node.form with
  | .identifier name => .string name
  | .string value _ => .string value
  | .number spelling => .number spelling
  | _ => .undefined

/-- The cooked value of a piece of a template. -/
def piece (node : Node) : Text := (Literal.cook node.form.quasiSource).toOption.getD []

/-- The meaning of a form from the meanings of its subtrees. Statements mean nothing here. -/
def step (form : Form (Node × m (Reference ω))) : m (Reference ω) :=
  match form with
  | .identifier name => pure (.variable name)
  | .string value _ => pure (.value (.string value))
  | .number spelling => pure (.value (.number spelling))
  | .boolean value => pure (.value (.boolean value))
  | .null => pure (.value .null)
  | .template quasis expressions => do
    return .value (.string (← env.interleave (quasis.map (piece ·.1)) (expressions.map (·.2))))
  | .member target name computed => do
    let base ← target.2 >>= env.value
    let key ← if computed then name.2 >>= env.value else pure (plainKey name.1)
    return .property base key
  | .call callee arguments => do
    let callee ← callee.2
    let function ← env.value callee
    let arguments ← (arguments.map (·.2)).mapM (· >>= env.value)
    return .value (← env.invoke callee function arguments)
  | .assignment left right operator => do
    let target ← left.2
    if operator = ("=" : Text) then
      let value ← right.2 >>= env.value
      env.assign target value
      return .value value
    else return .value (← env.update operator target (right.2 >>= env.value))
  | .property key value computed => do
    let key ← if computed then key.2 >>= env.value >>= env.toKey else pure (plainKey key.1)
    return .entry key (← value.2 >>= env.value) computed
  | .object properties => do
    let object ← env.create
    (properties.map (·.2)).forM fun property => property >>= env.define object
    return .value object
  | .raw kind text _ => env.raw kind text
  | _ => pure (.value .undefined)

/-- The meaning of an expression, or of an entry of an object. -/
def evaluate (node : Node) : m (Reference ω) := node.fold fun _ _ form => env.step form

theorem evaluate_mk (location : Option Location) (comments : List Comment) (form : Form Node) :
    env.evaluate (.mk location comments form) =
      env.step (form.map fun node => (node, env.evaluate node)) :=
  Node.fold_mk ..

end Environment

/-! ## Expressions -/

/-- A key that is written as a name, a string or a number. -/
def IsPlainKey (node : Node) : Prop :=
  match node.form with
  | .identifier _ | .string .. | .number _ => True
  | _ => False

/-- A piece of a template. -/
def IsQuasi (node : Node) : Prop :=
  match node.form with
  | .quasi .. => True
  | _ => False

mutual

/-- The trees that are expressions. -/
inductive IsExpression : Node → Prop where
  | identifier : IsExpression (.mk l c (.identifier name))
  | string : IsExpression (.mk l c (.string value spelling))
  | number : IsExpression (.mk l c (.number spelling))
  | boolean : IsExpression (.mk l c (.boolean value))
  | null : IsExpression (.mk l c .null)
  | template : (∀ quasi ∈ quasis, IsQuasi quasi) →
    quasis.length = expressions.length + 1 →
    (∀ expression ∈ expressions, IsExpression expression) →
    IsExpression (.mk l c (.template quasis expressions))
  | member : IsExpression target → IsPlainKey name →
    IsExpression (.mk l c (.member target name false))
  | subscript : IsExpression target → IsExpression index →
    IsExpression (.mk l c (.member target index true))
  | call : IsExpression callee → (∀ argument ∈ arguments, IsExpression argument) →
    IsExpression (.mk l c (.call callee arguments))
  | assignment : IsExpression left → IsExpression right →
    IsExpression (.mk l c (.assignment left right operator))
  | object : (∀ property ∈ properties, IsEntry property) →
    IsExpression (.mk l c (.object properties))
  | raw : IsExpression (.mk l c (.raw kind text operands))

/-- The trees that are entries of an object. -/
inductive IsEntry : Node → Prop where
  | plain : IsPlainKey key → IsExpression value → IsEntry (.mk l c (.property key value false))
  | computed : IsExpression key → IsExpression value →
    IsEntry (.mk l c (.property key value true))
  | raw : IsEntry (.mk l c (.raw kind text operands))

end

end ElementWrapper
