import ElementWrapper.Module.Form

/-!
The nodes of a module: a form together with the place it was written at and the comments before it.

`Node.fold` is the one recursion over nodes. It hands each step the subtrees beside the results for
them, and `Node.fold_mk` is its defining equation; the traversals are written with it and reasoned
about through that equation.
-/

namespace ElementWrapper

/-- A place in a source text: the number of the line, from one, and the number of code points before
it in that line. -/
structure Location where
  line : Int
  column : Int
  deriving DecidableEq, Repr

/-- A comment without its delimiters. -/
structure Comment where
  block : Bool
  value : Text
  deriving DecidableEq, Repr

/-- A node of a module. -/
inductive Node where
  | mk (location : Option Location) (comments : List Comment) (form : Form Node)

namespace Node

/-- Where the node was written, if it comes from a source text. -/
def location : Node → Option Location
  | mk location _ _ => location

/-- The comments before the node. -/
def comments : Node → List Comment
  | mk _ comments _ => comments

/-- The form of the node. -/
def form : Node → Form Node
  | mk _ _ form => form

/-- The ESTree name of the form of the node. -/
def typeName (node : Node) : String := node.form.typeName

/-- The direct subtrees of the node, in order. -/
def children (node : Node) : List Node := node.form.children

instance : Inhabited Node := ⟨mk none [] .null⟩

/-- A node without a place and without comments. -/
def of (form : Form Node) : Node := mk none [] form

/-- A node with a place. -/
def at? (location : Option Location) (form : Form Node) : Node := mk location [] form

/-- The node with other comments before it. -/
def withComments (comments : List Comment) : Node → Node
  | mk location _ form => mk location comments form

/-! ## Recursion -/

section Fold

variable {β : Type} (step : Option Location → List Comment → Form (Node × β) → β)

mutual

/-- The result for a node from its place, its comments, its subtrees and the results for them. -/
def fold : Node → β
  | mk location comments form => step location comments (foldForm form)

/-- The subtrees of a form beside the results for them. -/
def foldForm : Form Node → Form (Node × β)
  | .identifier name => .identifier name
  | .string value spelling => .string value spelling
  | .number spelling => .number spelling
  | .boolean value => .boolean value
  | .null => .null
  | .quasi source tail => .quasi source tail
  | .template quasis expressions => .template (foldList quasis) (foldList expressions)
  | .property key value computed => .property (key, fold key) (value, fold value) computed
  | .object properties => .object (foldList properties)
  | .member target name computed => .member (target, fold target) (name, fold name) computed
  | .call callee arguments => .call (callee, fold callee) (foldList arguments)
  | .assignment left right operator => .assignment (left, fold left) (right, fold right) operator
  | .decorator expression => .decorator (expression, fold expression)
  | .classField key value static computed decorators =>
    .classField (key, fold key) (foldOption value) static computed (foldList decorators)
  | .classMethod key kind static computed decorators body =>
    .classMethod (key, fold key) kind static computed (foldList decorators) (foldOption body)
  | .classDeclaration id superClass decorators body =>
    .classDeclaration (foldOption id) (foldOption superClass) (foldList decorators)
      (foldList body)
  | .block body => .block (foldList body)
  | .returnStatement argument => .returnStatement (foldOption argument)
  | .expressionStatement expression => .expressionStatement (expression, fold expression)
  | .declarator id init => .declarator (id, fold id) (foldOption init)
  | .variables kind declarations => .variables kind (foldList declarations)
  | .importDefault binding => .importDefault (binding, fold binding)
  | .importNamespace binding => .importNamespace (binding, fold binding)
  | .importSpecifier binding imported =>
    .importSpecifier (binding, fold binding) (imported, fold imported)
  | .importDeclaration specifiers source typeOnly =>
    .importDeclaration (foldList specifiers) (source, fold source) typeOnly
  | .exportSpecifier binding exported =>
    .exportSpecifier (binding, fold binding) (exported, fold exported)
  | .exportNamed declaration specifiers source typeOnly =>
    .exportNamed (foldOption declaration) (foldList specifiers) (foldOption source) typeOnly
  | .exportDefault declaration => .exportDefault (declaration, fold declaration)
  | .program body => .program (foldList body)
  | .raw kind text operands => .raw kind text (foldList operands)

/-- The nodes of a list beside the results for them. -/
def foldList : List Node → List (Node × β)
  | [] => []
  | node :: rest => (node, fold node) :: foldList rest

/-- A node that may be missing beside the result for it. -/
def foldOption : Option Node → Option (Node × β)
  | none => none
  | some node => some (node, fold node)

end

theorem foldList_eq_map (nodes : List Node) :
    foldList step nodes = nodes.map fun node => (node, fold step node) := by
  induction nodes with
  | nil => simp [foldList]
  | cons node rest ih => simp [foldList, ih]

theorem foldOption_eq_map (node : Option Node) :
    foldOption step node = node.map fun node => (node, fold step node) := by
  cases node <;> simp [foldOption]

theorem foldForm_eq_map (form : Form Node) :
    foldForm step form = form.map fun node => (node, fold step node) := by
  cases form <;> simp [foldForm, Form.map, foldList_eq_map, foldOption_eq_map]

theorem fold_mk (location : Option Location) (comments : List Comment) (form : Form Node) :
    fold step (mk location comments form) =
      step location comments (form.map fun node => (node, fold step node)) := by
  rw [fold, foldForm_eq_map]

end Fold

/-! ## Equality -/

/-- Two nodes are alike when they have equal forms and comments all the way down; neither places nor
the spelling of strings count. -/
def alike (node : Node) : Node → Bool :=
  node.fold fun _ comments form other =>
    decide (comments = other.comments) && decide (form.shape = other.form.shape) &&
      (form.children.zip other.children).all fun (child, other) => child.2 other

/-! ## Names -/

/-- The name of an identifier. -/
def identifierName? : Node → Option Text
  | mk _ _ (.identifier name) => some name
  | _ => none

/-- The name of an identifier; a node that is none has the empty name. -/
def name (node : Node) : Text := node.identifierName?.getD []

/-- The value of a string literal. -/
def stringValue? : Node → Option Text
  | mk _ _ (.string value _) => some value
  | _ => none

/-- The name that a key gives to a member when it is not computed. -/
def keyName? : Node → Option Text
  | mk _ _ (.identifier name) => some name
  | mk _ _ (.string value _) => some value
  | _ => none

/-- The statements of a program or of a block; any other node has none. -/
def statements : Node → List Node
  | mk _ _ (.program body) | mk _ _ (.block body) => body
  | _ => []

/-- A string literal or a template literal. -/
def isStringLike : Node → Bool
  | mk _ _ (.string ..) | mk _ _ (.template ..) => true
  | _ => false

/-! ## Builders -/

/-- An identifier. -/
def identifier (name : Text) : Node := of (.identifier name)

/-- A string literal that is spelled as its value needs. -/
def string (value : Text) : Node := of (.string value none)

/-- A member access by name. -/
def memberNamed (target name : Text) : Node :=
  of (.member (identifier target) (identifier name) false)

end Node

end ElementWrapper
