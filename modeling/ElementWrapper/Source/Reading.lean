import ElementWrapper.Literal.Cooked
import ElementWrapper.Source.Body
import ElementWrapper.Source.Check
import ElementWrapper.Source.Parser

/-!
Reading a concrete tree as a node of a module. Every construct that a form exists for has a function
here; it is given `read`, which reads the trees below. Any other construct is read by `raw`, which
keeps its text and reads its operands. `Document.read` ties the knot by the height of the tree, and
`readModule` reads a whole source text.

`parse` gives up where a text breaks the grammar. What the program says of such a text is up to a
parser that goes on after errors: a `Recovery` gives the tree that it makes of the text, and the
first error in that tree is reported.
-/

namespace ElementWrapper.Source

open Literal (EscapeError cook)

/-- Why a source text gives no module. -/
inductive ReadError where
  /-- The text breaks the grammar. -/
  | grammar (error : Diagnostic)
  /-- An escape in a string stands for no code point. -/
  | escape (error : EscapeError)
  deriving DecidableEq

namespace Document

section

variable (d : Document) (read : Tree → Except EscapeError Node)

/-- A node of a form that was written where a tree begins. -/
def place (tree : Tree) (form : Form Node) : Node := .mk (some (d.location tree)) [] form

/-- The text between the delimiters of a comment; a comment that opens with neither is all text. -/
def comment (tree : Tree) : Comment :=
  match d.text tree with
  | .scalar '/' :: .scalar '*' :: rest => ⟨true, rest.take (rest.length - 2)⟩
  | .scalar '/' :: .scalar '/' :: rest => ⟨false, rest⟩
  | text => ⟨false, text⟩

/-- Any construct with its text and its operands. -/
def raw (tree : Tree) : Except EscapeError Node :=
  return d.place tree (.raw tree.kind (d.text tree) (← tree.operands.mapM read))

/-- The first operand, or else the construct itself with its text. -/
def firstOperand (tree : Tree) : Except EscapeError Node :=
  match tree.operands with
  | operand :: _ => read operand
  | [] => d.raw read tree

/-- A name. -/
def identifier (tree : Tree) : Node := d.place tree (.identifier (d.text tree))

/-- A string literal. -/
def string (tree : Tree) : Except EscapeError Node := do
  let spelling := d.text tree
  let value ← cook ((spelling.drop 1).take (spelling.length - 2))
  return d.place tree (.string value (some spelling))

/-- A decorator. -/
def decorator (tree : Tree) : Except EscapeError Node :=
  return d.place tree (.decorator (← d.firstOperand read tree))

/-- The decorators among the parts of a construct. -/
def decorators (tree : Tree) : Except EscapeError (List Node) :=
  (tree.children.filter (·.kind = "decorator")).mapM (d.decorator read)

/-! ## Bodies -/

/-- What a part of a body is. -/
def item (tree : Tree) : Except EscapeError Item :=
  if tree.isComment then return .comment (d.comment tree)
  else return .member (← read tree)

/-- What a part of the body of a class is. -/
def classItem (tree : Tree) : Except EscapeError Item :=
  if tree.isComment then return .comment (d.comment tree)
  else if tree.kind = "decorator" then return .decorator (← d.decorator read tree)
  else return .member (← read tree)

/-- The statements among the parts of a construct. -/
def statements (tree : Tree) : Except EscapeError (List Node) :=
  return Item.statements [] (← tree.namedChildren.mapM (d.item read))

/-- A block of statements. -/
def block (tree : Tree) : Except EscapeError Node :=
  return d.place tree (.block (← d.statements read tree))

/-! ## Imports and exports -/

/-- A name of a module, which may be written as a string. -/
def moduleName (tree : Tree) : Except EscapeError Node :=
  if tree.kind = "string" then
    return d.place tree (.identifier ((← d.string tree).stringValue?.getD []))
  else return d.identifier tree

/-- A name between the braces of an import; a name of a type is skipped. -/
def importSpecifier (tree : Tree) : Except EscapeError (List Node) := do
  if tree.kind ≠ "import_specifier" ∨ tree.hasToken "type" then return []
  match tree.child? "name" with
  | none => return []
  | some name =>
    let imported ← d.moduleName name
    let binding := match tree.child? "alias" with
      | some other => d.text other
      | none => imported.name
    return [d.place tree (.importSpecifier (Node.identifier binding) imported)]

/-- What a part of an import brings in. -/
def importPart (tree : Tree) : Except EscapeError (List Node) :=
  match tree.kind with
  | "identifier" => return [d.place tree (.importDefault (Node.identifier (d.text tree)))]
  | "namespace_import" =>
    let names := tree.operands.take 1
    return names.map fun name => d.place tree (.importNamespace (Node.identifier (d.text name)))
  | "named_imports" => return (← tree.namedChildren.mapM d.importSpecifier).flatten
  | _ => return []

/-- An import. -/
def importStatement (tree : Tree) : Except EscapeError Node := do
  match tree.child? "source" with
  | none => d.raw read tree
  | some source =>
    let clauses := tree.namedChildren.filter (·.kind = "import_clause")
    let parts := (clauses.map (·.namedChildren)).flatten
    let specifiers ← parts.mapM d.importPart
    return d.place tree (.importDeclaration specifiers.flatten (← d.string source)
      (tree.hasToken "type" || tree.hasToken "typeof"))

/-- A name between the braces of an export; a name of a type is skipped. -/
def exportSpecifier (tree : Tree) : Except EscapeError (List Node) := do
  if tree.kind ≠ "export_specifier" ∨ tree.hasToken "type" then return []
  match tree.child? "name" with
  | none => return []
  | some name =>
    let binding ← d.moduleName name
    let exported ← match tree.child? "alias" with
      | some other => d.moduleName other
      | none => pure (Node.identifier binding.name)
    return [d.place tree (.exportSpecifier binding exported)]

/-- A class with decorators ahead of its own. -/
def decoratedClass (decorators : List Node) : Node → Node
  | .mk location comments (.classDeclaration id superClass own body) =>
    .mk location comments (.classDeclaration id superClass (decorators ++ own) body)
  | node => node

/-- An export. -/
def exportStatement (tree : Tree) : Except EscapeError Node := do
  let decorators ← d.decorators read tree
  let standard := tree.hasToken "default"
  match tree.child? "declaration" with
  | some declaration =>
    let declaration := decoratedClass decorators (← read declaration)
    if standard then return d.place tree (.exportDefault declaration)
    else return d.place tree (.exportNamed (some declaration) [] none false)
  | none =>
    match standard, tree.child? "value" with
    | true, some value => return d.place tree (.exportDefault (← read value))
    | _, _ =>
      match tree.namedChildren.find? (·.kind = "export_clause") with
      | none => d.raw read tree
      | some clause =>
        let specifiers ← clause.namedChildren.mapM d.exportSpecifier
        let source ← (tree.child? "source").mapM d.string
        return d.place tree
          (.exportNamed none specifiers.flatten source (tree.hasToken "type"))

/-! ## Classes -/

/-- The class that a heritage extends. -/
def superClass (heritage : Tree) : Except EscapeError (Option Node) :=
  match heritage.operands.find? (·.kind ≠ "implements_clause") with
  | none => return none
  | some clause =>
    if clause.kind = "extends_clause" then
      ((clause.child? "value").or clause.operands.head?).mapM read
    else return some (← read clause)

/-- A class. -/
def classDeclaration (tree : Tree) : Except EscapeError Node := do
  let decorators ← d.decorators read tree
  let heritages := tree.namedChildren.filter (·.kind = "class_heritage")
  let supers ← heritages.mapM (superClass read)
  let body ← match tree.child? "body" with
    | some body => pure (Item.classMembers [] [] (← body.namedChildren.mapM (d.classItem read)))
    | none => pure []
  return d.place tree
    (.classDeclaration ((tree.child? "name").map d.identifier) supers.getLast?.join decorators
      body)

/-- The name of a member or of an entry; a computed one is the expression between the brackets. -/
def key (tree : Tree) : Except EscapeError Node :=
  if tree.kind = "computed_property_name" then d.firstOperand read tree else read tree

/-- Whether the name of a member is computed. -/
def isComputed (name : Tree) : Bool := name.kind = "computed_property_name"

/-- The name of a member of a class. -/
def memberName? (tree : Tree) : Option Tree := (tree.child? "name").or (tree.child? "property")

/-- Whether a method is static and what its kind is, by the words before its name. -/
def methodWords (name : Tree) (children : List Tree) : Bool × MethodKind :=
  let before := children.takeWhile (·.start.byte < name.start.byte)
  let step (found : Bool × MethodKind) (token : Tree) : Bool × MethodKind :=
    match token.kind with
    | "static" => (true, found.2)
    | "static get" => (true, .get)
    | "get" => (found.1, .get)
    | "set" => (found.1, .set)
    | _ => found
  (before.filter (!·.named)).foldl step (false, .method)

/-- A method. -/
def method (tree : Tree) : Except EscapeError Node :=
  match memberName? tree with
  | none => d.raw read tree
  | some name => do
    let (static, kind) := methodWords name tree.children
    let isConstructor := name.kind = "property_identifier" ∧ d.text name = ("constructor" : Text)
    let key ← d.key read name
    let decorators ← d.decorators read tree
    let body ← (tree.child? "body").mapM (d.block read)
    return d.place tree (.classMethod key (if isConstructor then .constructor else kind) static
      (isComputed name) decorators body)

/-- A field. -/
def classField (tree : Tree) : Except EscapeError Node :=
  match memberName? tree with
  | none => d.raw read tree
  | some name => do
    let key ← d.key read name
    let value ← (tree.child? "value").mapM read
    let decorators ← d.decorators read tree
    return d.place tree
      (.classField key value (tree.hasToken "static") (isComputed name) decorators)

/-! ## Statements -/

/-- A return statement. -/
def returnStatement (tree : Tree) : Except EscapeError Node :=
  return d.place tree (.returnStatement (← tree.operands.head?.mapM read))

/-- An expression statement. -/
def expressionStatement (tree : Tree) : Except EscapeError Node :=
  match tree.operands with
  | [] => d.raw read tree
  | expression :: _ => return d.place tree (.expressionStatement (← read expression))

/-- A variable and its value. -/
def declarator (tree : Tree) : Except EscapeError Node := do
  let id ← match tree.child? "name" with
    | some name => read name
    | none => d.raw read tree
  return d.place tree (.declarator id (← (tree.child? "value").mapM read))

/-- A declaration of variables. -/
def variableDeclaration (tree : Tree) : Except EscapeError Node := do
  let kind : Text :=
    if tree.kind = "variable_declaration" then "var"
    else (tree.children.head?.map d.text).getD []
  let declarators := tree.namedChildren.filter (·.kind = "variable_declarator")
  return d.place tree (.variables kind (← declarators.mapM (d.declarator read)))

/-! ## Expressions -/

/-- Whether an access or a call is skipped when its target is missing. -/
def isOptional (tree : Tree) : Bool :=
  tree.children.any fun child => child.kind = "?." || child.kind = "optional_chain"

/-- A call. -/
def call (tree : Tree) : Except EscapeError Node :=
  match tree.child? "function", tree.child? "arguments" with
  | some callee, some arguments =>
    if arguments.kind = "arguments" then do
      let callee ← read callee
      return d.place tree (.call callee (← arguments.operands.mapM read))
    else d.raw read tree
  | _, _ => d.raw read tree

/-- An access to a member whose name plays a part. -/
def access (part : String) (computed : Bool) (tree : Tree) : Except EscapeError Node :=
  match tree.child? "object", tree.child? part with
  | some target, some name =>
    if isOptional tree then d.raw read tree
    else do
      let target ← read target
      return d.place tree (.member target (← read name) computed)
  | _, _ => d.raw read tree

/-- An assignment. -/
def assignment (tree : Tree) : Except EscapeError Node :=
  match tree.child? "left", tree.child? "right" with
  | some left, some right => do
    let left ← read left
    return d.place tree (.assignment left (← read right) "=")
  | _, _ => d.raw read tree

/-- An entry of an object. -/
def entry (tree : Tree) : Except EscapeError Node :=
  match tree.kind with
  | "pair" =>
    match tree.child? "key", tree.child? "value" with
    | some name, some value => do
      let key ← d.key read name
      return d.place tree (.property key (← read value) (isComputed name))
    | _, _ => d.raw read tree
  | "shorthand_property_identifier" =>
    let name := Node.identifier (d.text tree)
    return d.place tree (.property name name false)
  | _ => d.raw read tree

/-- What a part of an object is. -/
def entryItem (tree : Tree) : Except EscapeError Item :=
  if tree.isComment then return .comment (d.comment tree)
  else return .member (← d.entry read tree)

/-- An object. -/
def object (tree : Tree) : Except EscapeError Node :=
  return d.place tree (.object (Item.entries [] (← tree.namedChildren.mapM (d.entryItem read))))

/-- The pieces of text between spans of bytes, from a position up to an end. -/
def quasis (start stop : Nat) : List Tree → List Node
  | [] => [.of (.quasi (Text.ofChars (d.slice start stop)) true)]
  | substitution :: rest =>
    .of (.quasi (Text.ofChars (d.slice start substitution.start.byte)) false) ::
      quasis substitution.stop.byte stop rest

/-- A template. -/
def template (tree : Tree) : Except EscapeError Node := do
  let substitutions := tree.namedChildren.filter (·.kind = "template_substitution")
  let expressions ← substitutions.mapM (d.firstOperand read)
  return d.place tree
    (.template (d.quasis (tree.start.byte + 1) (tree.stop.byte - 1) substitutions) expressions)

/-! ## All constructs -/

/-- A construct, given how to read the trees below it. -/
def construct (tree : Tree) : Except EscapeError Node :=
  match tree.kind with
  | "identifier" | "property_identifier" | "private_property_identifier"
  | "shorthand_property_identifier" | "type_identifier" | "undefined" => return d.identifier tree
  | "import_statement" => d.importStatement read tree
  | "export_statement" => d.exportStatement read tree
  | "class_declaration" | "abstract_class_declaration" | "class" => d.classDeclaration read tree
  | "method_definition" => d.method read tree
  | "public_field_definition" | "field_definition" => d.classField read tree
  | "decorator" => d.decorator read tree
  | "statement_block" => d.block read tree
  | "return_statement" => d.returnStatement read tree
  | "expression_statement" => d.expressionStatement read tree
  | "lexical_declaration" | "variable_declaration" => d.variableDeclaration read tree
  | "variable_declarator" => d.declarator read tree
  | "call_expression" => d.call read tree
  | "member_expression" => d.access read "property" false tree
  | "subscript_expression" => d.access read "index" true tree
  | "assignment_expression" => d.assignment read tree
  | "object" => d.object read tree
  | "string" => d.string tree
  | "template_string" => d.template read tree
  | "number" => return d.place tree (.number (d.text tree))
  | "true" => return d.place tree (.boolean true)
  | "false" => return d.place tree (.boolean false)
  | "null" => return d.place tree .null
  | _ => d.raw read tree

end

variable (d : Document)

/-- A construct, within a bound on the levels of its tree. -/
def readWithin : Nat → Tree → Except EscapeError Node
  | 0, tree => return d.place tree (.raw tree.kind (d.text tree) [])
  | levels + 1, tree => d.construct (readWithin levels) tree

/-- The node that a tree is read as. -/
def read (tree : Tree) : Except EscapeError Node := d.readWithin tree.height tree

/-- The program that the tree of a whole text is read as. -/
def readProgram (tree : Tree) : Except EscapeError Node :=
  return d.place tree (.program (← d.statements d.read tree))

end Document

/-- A parser that goes on after errors: the tree that it makes of a text, if it makes one. -/
class Recovery where
  tree? : List Char → Option Tree

/-- Without such a parser nothing is known of an error. -/
instance (priority := low) : Recovery := ⟨fun _ => none⟩

section

variable [Recovery]

/-- What is said of a text that breaks the grammar: its first error, if it is known. -/
def syntaxError (source : List Char) : Diagnostic :=
  ((Recovery.tree? source).bind (Document.ofChars source).check).getD
    { message := "syntax error", location := none }

/-- The module that a source text is read as. -/
def readModule (source : List Char) : Except ReadError Node :=
  match parse source with
  | none => .error (.grammar (syntaxError source))
  | some tree => ((Document.ofChars source).readProgram tree).mapError .escape

end

end ElementWrapper.Source
