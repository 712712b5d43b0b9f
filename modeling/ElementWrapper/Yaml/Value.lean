import ElementWrapper.Yaml.Node

/-!
The values of a data file. `Value.ofNode` gives the value of a tree, and `Value.read` that of a
text. A mapping whose keys include the merge key takes in the entries of the mappings named there,
ahead of its own.
-/

namespace ElementWrapper.Yaml

/-- A value of a data file. -/
inductive Value where
  | null
  | bool (value : Bool)
  | int (value : Int)
  | float (value : Scalar.Real)
  | text (value : Text)
  | bytes (value : List UInt8)
  | sequence (items : List Value)
  | mapping (entries : List (Value × Value))
  /-- A date, a set or a pair. All of them count as something but the set without members. -/
  | other (isTrue : Bool)

namespace Value

/-- The text that a node stands for: a mapping stands for the value of its standard key. -/
def scalarText : Nat → Node → Except Fault Text
  | _, .scalar _ spelling => .ok spelling
  | levels + 1, .mapping _ entries =>
    let isStandard (key : Node) : Bool := match key with
      | .scalar .standard _ | .sequence .standard _ | .mapping .standard _ => true
      | _ => false
    match entries.find? fun entry => isStandard entry.1 with
    | some (_, value) => scalarText levels value
    | none => .error .malformed
  | _, _ => .error .malformed

/-- The tag of a node. -/
def tagOf : Node → Tag
  | .scalar tag _ | .sequence tag _ | .mapping tag _ => tag
  | .cycle => .sequence

/-- A node without the special meaning of the standard key. -/
def plainKey : Node → Node
  | .scalar .standard spelling => .scalar .text spelling
  | node => node

/-- The entries of a mapping with those of merged mappings ahead of its own. -/
def merged : Nat → List (Node × Node) → Except Fault (List (Node × Node))
  | 0, entries => .ok entries
  | levels + 1, entries => do
    let own := entries.filter fun entry => tagOf entry.1 ≠ .merge
    let others ← (entries.filter fun entry => tagOf entry.1 = .merge).mapM fun entry =>
      match entry.2 with
      | .mapping _ inner => merged levels inner
      | .sequence _ items => do
        let inner ← items.mapM fun item =>
          match item with
          | .mapping _ inner => merged levels inner
          | .cycle => .ok []
          | _ => .error .malformed
        return inner.reverse.flatten
      | .cycle => .ok []
      | .scalar .. => .error .malformed
    return others.flatten ++ own.map fun entry => (plainKey entry.1, entry.2)

/-- Whether a value may be a key. -/
def isKey : Value → Bool
  | sequence _ | mapping _ => false
  | _ => true

section

variable (levels : Nat) (value : Node → Except Fault Value)

/-- The entries of a mapping. -/
def entriesOf : Node → Except Fault (List (Value × Value))
  | .mapping _ entries => do
    (← merged levels entries).mapM fun (key, content) => do
      let key ← value key
      if !key.isKey then throw .malformed
      return (key, ← value content)
  | .cycle => .ok []
  | _ => .error .malformed

/-- The items of a sequence. -/
def itemsOf : Node → Except Fault (List Value)
  | .sequence _ items => items.mapM value
  | .cycle => .ok []
  | _ => .error .malformed

/-- The items of a sequence of mappings with one entry each. -/
def pairsOf : Node → Except Fault (List Value)
  | .sequence _ items => items.mapM fun item =>
    match item with
    | .mapping _ [(key, content)] => do
      let _ ← value key
      let _ ← value content
      return other true
    | _ => .error .malformed
  | _ => .error .malformed

/-- The value of a node by its tag. -/
def byTag (node : Node) : Except Fault Value :=
  match tagOf node with
  | .null => do
    let _ ← scalarText levels node
    return null
  | .bool => do return bool (← Scalar.bool (← scalarText levels node))
  | .int => do return int (← Scalar.int (← scalarText levels node))
  | .float => do return float (← Scalar.float (← scalarText levels node))
  | .binary => do return bytes (← Scalar.bytes (← scalarText levels node))
  | .timestamp => do
    Scalar.checkDate (← scalarText levels node)
    return other true
  | .text => do return text (← scalarText levels node)
  | .sequence => do return sequence (← itemsOf value node)
  | .mapping => do return mapping (← entriesOf levels value node)
  | .set => do
    let entries ← entriesOf levels value node
    return other (!entries.isEmpty)
  | .orderedMap | .pairs => do return sequence (← pairsOf value node)
  | .merge | .standard | .unknown => .error .malformed

end

/-- The value of a node, within a bound on its levels. -/
def ofNodeWithin : Nat → Node → Except Fault Value
  | 0, _ => .ok null
  | levels + 1, node => byTag levels (ofNodeWithin levels) node

/-- The value of a text. -/
def read (source : List Char) : Except Fault Value := do
  let (tokens, fault) := Token.scan source
  ofNodeWithin (tokens.length + 1) (← Node.ofTokens tokens fault)

/-- Whether a value counts as something. -/
def isTrue : Value → Bool
  | null => false
  | bool value => value
  | int value => value ≠ 0
  | float (.number _ value) => value ≠ .zero
  | float .nan => true
  | text value => !value.isEmpty
  | bytes value => !value.isEmpty
  | sequence items => !items.isEmpty
  | mapping entries => !entries.isEmpty
  | other isTrue => isTrue

/-- The value of a key that is a text; the last of several counts. -/
def get? (value : Value) (name : Text) : Option Value :=
  match value with
  | mapping entries =>
    (entries.reverse.find? fun entry => match entry.1 with
      | text key => key = name
      | _ => false).map (·.2)
  | _ => none

end Value

end ElementWrapper.Yaml
