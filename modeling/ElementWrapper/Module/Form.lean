import ElementWrapper.Text.Basic

/-!
The forms that a node of a module can take, over the type of its subtrees. The names follow the
ESTree vocabulary. Only the constructs that the wrapper needs are modelled; every other construct is
a `Form.raw`, which keeps its source text and its operands.

The subtrees of a form have one order, that of `Form.children`; `Form.map` and `Form.traverse` go
through them in the same order.
-/

namespace ElementWrapper

/-- The kinds of a method of a class. -/
inductive MethodKind where
  | method
  | get
  | set
  | constructor
  deriving DecidableEq, Repr

/-- A construct of a module with subtrees of type `α`. -/
inductive Form (α : Type) where
  | identifier (name : Text)
  | string (value : Text) (spelling : Option Text)
  | number (spelling : Text)
  | boolean (value : Bool)
  | null
  | quasi (source : Text) (tail : Bool)
  | template (quasis expressions : List α)
  | property (key value : α) (computed : Bool)
  | object (properties : List α)
  | member (target name : α) (computed : Bool)
  | call (callee : α) (arguments : List α)
  | assignment (left right : α) (operator : Text)
  | decorator (expression : α)
  | classField (key : α) (value : Option α) (static computed : Bool) (decorators : List α)
  | classMethod (key : α) (kind : MethodKind) (static computed : Bool) (decorators : List α)
      (body : Option α)
  | classDeclaration (id superClass : Option α) (decorators body : List α)
  | block (body : List α)
  | returnStatement (argument : Option α)
  | expressionStatement (expression : α)
  | declarator (id : α) (init : Option α)
  | variables (kind : Text) (declarations : List α)
  | importDefault (binding : α)
  | importNamespace (binding : α)
  | importSpecifier (binding imported : α)
  | importDeclaration (specifiers : List α) (source : α) (typeOnly : Bool)
  | exportSpecifier (binding exported : α)
  | exportNamed (declaration : Option α) (specifiers : List α) (source : Option α)
      (typeOnly : Bool)
  | exportDefault (declaration : α)
  | program (body : List α)
  | raw (kind text : Text) (operands : List α)
  deriving DecidableEq, Repr

namespace Form

variable {α β : Type}

/-- The ESTree name of a form. -/
def typeName : Form α → String
  | identifier .. => "Identifier"
  | string .. => "StringLiteral"
  | number .. => "NumericLiteral"
  | boolean .. => "BooleanLiteral"
  | null => "NullLiteral"
  | quasi .. => "TemplateElement"
  | template .. => "TemplateLiteral"
  | property .. => "ObjectProperty"
  | object .. => "ObjectExpression"
  | member .. => "MemberExpression"
  | call .. => "CallExpression"
  | assignment .. => "AssignmentExpression"
  | decorator .. => "Decorator"
  | classField .. => "ClassProperty"
  | classMethod .. => "ClassMethod"
  | classDeclaration .. => "ClassDeclaration"
  | block .. => "BlockStatement"
  | returnStatement .. => "ReturnStatement"
  | expressionStatement .. => "ExpressionStatement"
  | declarator .. => "VariableDeclarator"
  | .variables .. => "VariableDeclaration"
  | importDefault .. => "ImportDefaultSpecifier"
  | importNamespace .. => "ImportNamespaceSpecifier"
  | importSpecifier .. => "ImportSpecifier"
  | importDeclaration .. => "ImportDeclaration"
  | exportSpecifier .. => "ExportSpecifier"
  | exportNamed .. => "ExportNamedDeclaration"
  | exportDefault .. => "ExportDefaultDeclaration"
  | program .. => "Program"
  | raw .. => "RawNode"

/-- The subtrees of a form, in order. -/
def children : Form α → List α
  | identifier _ | string _ _ | number _ | boolean _ | null | quasi _ _ => []
  | template quasis expressions => quasis ++ expressions
  | property key value _ => [key, value]
  | object properties => properties
  | member target name _ => [target, name]
  | call callee arguments => callee :: arguments
  | assignment left right _ => [left, right]
  | decorator expression => [expression]
  | classField key value _ _ decorators => key :: value.toList ++ decorators
  | classMethod key _ _ _ decorators body => key :: decorators ++ body.toList
  | classDeclaration id superClass decorators body =>
    id.toList ++ superClass.toList ++ decorators ++ body
  | block body => body
  | returnStatement argument => argument.toList
  | expressionStatement expression => [expression]
  | declarator id init => id :: init.toList
  | .variables _ declarations => declarations
  | importDefault binding => [binding]
  | importNamespace binding => [binding]
  | importSpecifier binding imported => [binding, imported]
  | importDeclaration specifiers source _ => specifiers ++ [source]
  | exportSpecifier binding exported => [binding, exported]
  | exportNamed declaration specifiers source _ =>
    declaration.toList ++ specifiers ++ source.toList
  | exportDefault declaration => [declaration]
  | program body => body
  | raw _ _ operands => operands

/-- The form with a function applied to its subtrees. -/
def map (f : α → β) : Form α → Form β
  | identifier name => identifier name
  | string value spelling => string value spelling
  | number spelling => number spelling
  | boolean value => boolean value
  | null => null
  | quasi source tail => quasi source tail
  | template quasis expressions => template (quasis.map f) (expressions.map f)
  | property key value computed => property (f key) (f value) computed
  | object properties => object (properties.map f)
  | member target name computed => member (f target) (f name) computed
  | call callee arguments => call (f callee) (arguments.map f)
  | assignment left right operator => assignment (f left) (f right) operator
  | decorator expression => decorator (f expression)
  | classField key value static computed decorators =>
    classField (f key) (value.map f) static computed (decorators.map f)
  | classMethod key kind static computed decorators body =>
    classMethod (f key) kind static computed (decorators.map f) (body.map f)
  | classDeclaration id superClass decorators body =>
    classDeclaration (id.map f) (superClass.map f) (decorators.map f) (body.map f)
  | block body => block (body.map f)
  | returnStatement argument => returnStatement (argument.map f)
  | expressionStatement expression => expressionStatement (f expression)
  | declarator id init => declarator (f id) (init.map f)
  | .variables kind declarations => .variables kind (declarations.map f)
  | importDefault binding => importDefault (f binding)
  | importNamespace binding => importNamespace (f binding)
  | importSpecifier binding imported => importSpecifier (f binding) (f imported)
  | importDeclaration specifiers source typeOnly =>
    importDeclaration (specifiers.map f) (f source) typeOnly
  | exportSpecifier binding exported => exportSpecifier (f binding) (f exported)
  | exportNamed declaration specifiers source typeOnly =>
    exportNamed (declaration.map f) (specifiers.map f) (source.map f) typeOnly
  | exportDefault declaration => exportDefault (f declaration)
  | program body => program (body.map f)
  | raw kind text operands => raw kind text (operands.map f)

/-- The form rebuilt with an effect at each subtree, in the order of `children`. -/
def traverse {m : Type → Type} [Monad m] (f : α → m β) : Form α → m (Form β)
  | identifier name => pure (identifier name)
  | string value spelling => pure (string value spelling)
  | number spelling => pure (number spelling)
  | boolean value => pure (boolean value)
  | null => pure null
  | quasi source tail => pure (quasi source tail)
  | template quasis expressions => return template (← quasis.mapM f) (← expressions.mapM f)
  | property key value computed => return property (← f key) (← f value) computed
  | object properties => return object (← properties.mapM f)
  | member target name computed => return member (← f target) (← f name) computed
  | call callee arguments => return call (← f callee) (← arguments.mapM f)
  | assignment left right operator => return assignment (← f left) (← f right) operator
  | decorator expression => return decorator (← f expression)
  | classField key value static computed decorators =>
    return classField (← f key) (← value.mapM f) static computed (← decorators.mapM f)
  | classMethod key kind static computed decorators body =>
    return classMethod (← f key) kind static computed (← decorators.mapM f) (← body.mapM f)
  | classDeclaration id superClass decorators body =>
    return classDeclaration (← id.mapM f) (← superClass.mapM f) (← decorators.mapM f)
      (← body.mapM f)
  | block body => return block (← body.mapM f)
  | returnStatement argument => return returnStatement (← argument.mapM f)
  | expressionStatement expression => return expressionStatement (← f expression)
  | declarator id init => return declarator (← f id) (← init.mapM f)
  | .variables kind declarations => return .variables kind (← declarations.mapM f)
  | importDefault binding => return importDefault (← f binding)
  | importNamespace binding => return importNamespace (← f binding)
  | importSpecifier binding imported => return importSpecifier (← f binding) (← f imported)
  | importDeclaration specifiers source typeOnly =>
    return importDeclaration (← specifiers.mapM f) (← f source) typeOnly
  | exportSpecifier binding exported => return exportSpecifier (← f binding) (← f exported)
  | exportNamed declaration specifiers source typeOnly =>
    return exportNamed (← declaration.mapM f) (← specifiers.mapM f) (← source.mapM f) typeOnly
  | exportDefault declaration => return exportDefault (← f declaration)
  | program body => return program (← body.mapM f)
  | raw kind text operands => return raw kind text (← operands.mapM f)

/-- The source text of a piece of a template; any other form has none. -/
def quasiSource : Form α → Text
  | quasi source _ => source
  | _ => []

/-- What is left of a form without its subtrees and without the spelling of a string. -/
def shape : Form α → Form Unit
  | string value _ => string value none
  | form => form.map fun _ => ()

end Form

end ElementWrapper
