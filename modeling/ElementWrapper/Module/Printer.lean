import ElementWrapper.Module.Node
import ElementWrapper.Literal.Quoted

/-!
The source text of a module. `Layout.program` prints a statement a line; objects and blocks are
broken over lines and indented by their depth, everything else stays on one line. Comments stand on
lines of their own before a statement or before an entry of an object.

Strings keep the spelling they were written with; a string without one is quoted by
`Literal.quote`. Classes, specifiers and the other forms that only a wrapped module holds have no
text, and `Unprintable` names the form that was met.
-/

namespace ElementWrapper

/-- The two kinds of place where a node can be printed. -/
inductive Position where
  | statement
  | expression
  deriving DecidableEq, Repr

/-- A form that has no text in its position. -/
structure Unprintable where
  position : Position
  typeName : String
  deriving DecidableEq, Repr

/-- The text by which one level of depth is indented. -/
structure Layout where
  indent : Text := "  "

namespace Layout

/-- The opening brace. -/
def openBrace : Text := "\x7b"

/-- The closing brace. -/
def closeBrace : Text := "\x7d"

/-- The beginning of a line at a depth; below depth zero it is empty. -/
def margin (layout : Layout) (level : Int) : Text := Text.times level.toNat layout.indent

/-- A comment with its delimiters. -/
def comment (layout : Layout) (level : Int) (comment : Comment) : Text :=
  layout.margin level ++
    if comment.block then "/*" ++ comment.value ++ "*/" else "//" ++ comment.value

/-- Code at the beginning of a line, after its comments. -/
def commented (layout : Layout) (level : Int) (comments : List Comment) (code : Text) : Text :=
  Text.join "\n" (comments.map (layout.comment level) ++ [layout.margin level ++ code])

/-- Items in braces on one line. -/
def braced (items : List Text) : Text :=
  openBrace ++ " " ++ Text.join ", " items ++ " " ++ closeBrace

/-- A computed name. -/
def bracketed (name : Text) : Text := "[" ++ name ++ "]"

/-- A name under which another one is known. -/
def renamed (name other : Text) : Text := if name = other then other else name ++ " as " ++ other

/-- What an import declaration binds, before the named bindings: defaults, the last one first, and
then namespaces. -/
def importHeads (specifiers : List Node) : List Text :=
  let defaults := specifiers.filterMap fun specifier => match specifier.form with
    | .importDefault binding => some binding.name
    | _ => none
  let namespaces := specifiers.filterMap fun specifier => match specifier.form with
    | .importNamespace binding => some ("* as " ++ binding.name)
    | _ => none
  defaults.reverse ++ namespaces

/-- The named bindings of an import declaration. -/
def importNames (specifiers : List Node) : List Text :=
  specifiers.filterMap fun specifier => match specifier.form with
    | .importSpecifier binding imported => some (renamed imported.name binding.name)
    | _ => none

/-- An import declaration, given the text of its source. -/
def importDeclaration (specifiers : List Node) (source : Text) : Text :=
  let names := importNames specifiers
  let parts := importHeads specifiers ++ if names.isEmpty then [] else [braced names]
  if parts.isEmpty then "import " ++ source ++ ";"
  else "import " ++ Text.join ", " parts ++ " from " ++ source ++ ";"

/-- The clause of an export declaration. -/
def exportClause (specifiers : List Node) : Text :=
  if specifiers.isEmpty then openBrace ++ closeBrace
  else braced <| specifiers.map fun specifier => match specifier.form with
    | .exportSpecifier binding exported => renamed binding.name exported.name
    | _ => []

/-- The pieces of a template with the texts of its substitutions between them. -/
def interleave : List Node → List Text → Text
  | [], _ => []
  | quasi :: quasis, [] => quasi.form.quasiSource ++ interleave quasis []
  | quasi :: quasis, code :: codes =>
    quasi.form.quasiSource ++ "$" ++ openBrace ++ code ++ closeBrace ++ interleave quasis codes

/-- The entries of an object in braces, each on lines of its own. -/
def object (layout : Layout) (level : Int) (entries : List Text) : Text :=
  if entries.isEmpty then openBrace ++ closeBrace
  else openBrace ++ "\n" ++ Text.join ",\n" entries ++ "\n" ++ layout.margin level ++ closeBrace

section Printing

variable (layout : Layout)

mutual

/-- The text of a node in an expression that begins at a depth. -/
def expression (level : Int) : Node → Except Unprintable Text
  | .mk _ _ (.identifier name) => .ok name
  | .mk _ _ (.string value spelling) => .ok (spelling.getD (Literal.quote value))
  | .mk _ _ (.number spelling) => .ok spelling
  | .mk _ _ (.boolean value) => .ok (if value then "true" else "false")
  | .mk _ _ .null => .ok "null"
  | .mk _ _ (.template quasis substitutions) => do
    return "`" ++ interleave quasis (← expressions level quasis.length substitutions) ++ "`"
  | .mk _ _ (.object properties) => do
    return object layout level (← entries (level + 1) properties)
  | .mk _ _ (.member target name computed) => do
    let target ← expression level target
    let name ← expression level name
    return if computed then target ++ "[" ++ name ++ "]" else target ++ "." ++ name
  | .mk _ _ (.call callee arguments) => do
    let arguments ← expressions level arguments.length arguments
    return (← expression level callee) ++ "(" ++ Text.join ", " arguments ++ ")"
  | .mk _ _ (.assignment left right operator) => do
    let left ← expression level left
    return left ++ " " ++ operator ++ " " ++ (← expression level right)
  | .mk _ _ (.raw _ text _) => .ok text
  | .mk _ _ form => .error ⟨.expression, form.typeName⟩
termination_by structural node => node

/-- The texts of the first expressions of a list, at most `count` of them. -/
def expressions (level : Int) (count : Nat) : List Node → Except Unprintable (List Text)
  | [] => .ok []
  | node :: rest => match count with
    | 0 => .ok []
    | count + 1 => do return (← expression level node) :: (← expressions level count rest)
termination_by structural nodes => nodes

/-- The lines of the entries of an object. -/
def entries (level : Int) : List Node → Except Unprintable (List Text)
  | [] => .ok []
  | .mk _ comments (.property key value computed) :: rest => do
    let name : Text ← match computed, key.stringValue? with
      | true, _ => bracketed <$> expression level key
      | false, some name => if Literal.isPlainName name then .ok name else expression level key
      | false, none => expression level key
    let entry := name ++ ": " ++ (← expression level value)
    return layout.commented level comments entry :: (← entries level rest)
  | node :: rest => do
    let entry ← expression level node
    return layout.commented level node.comments entry :: (← entries level rest)
termination_by structural nodes => nodes

end

/-- A declarator of a variable. -/
def declarator (level : Int) (node : Node) : Except Unprintable Text :=
  match node.form with
  | .declarator id none => layout.expression level id
  | .declarator id (some init) => do
    return (← layout.expression level id) ++ " = " ++ (← layout.expression level init)
  | _ => layout.expression level node

mutual

/-- The text of a node in the place of a statement, without its comments. -/
def statementBody (level : Int) : Node → Except Unprintable Text
  | .mk _ _ (.importDeclaration specifiers source _) => do
    return importDeclaration specifiers (← layout.expression 0 source)
  | .mk _ _ (.exportNamed (some declaration) _ _ _) => do
    return "export " ++ (← statementBody level declaration)
  | .mk _ _ (.exportNamed none specifiers none _) =>
    .ok ("export " ++ exportClause specifiers ++ ";")
  | .mk _ _ (.exportNamed none specifiers (some source) _) => do
    return "export " ++ exportClause specifiers ++ " from " ++
      (← layout.expression level source) ++ ";"
  | .mk _ _ (.exportDefault declaration) => do
    return "export default " ++ (← layout.expression level declaration) ++ ";"
  | .mk _ _ (.variables kind declarations) => do
    return kind ++ " " ++ Text.join ", " (← declarations.mapM (layout.declarator level)) ++ ";"
  | .mk _ _ (.expressionStatement expression) => do
    return (← layout.expression level expression) ++ ";"
  | .mk _ _ (.returnStatement none) => .ok "return;"
  | .mk _ _ (.returnStatement (some argument)) => do
    return "return " ++ (← layout.expression level argument) ++ ";"
  | .mk _ _ (.block []) => .ok (openBrace ++ closeBrace)
  | .mk _ _ (.block (first :: rest)) => do
    let body ← statements (level + 1) (first :: rest)
    return openBrace ++ "\n" ++ Text.join "\n" body ++ "\n" ++ layout.margin level ++ closeBrace
  | .mk _ _ (.raw _ text _) => .ok text
  | .mk _ _ form => .error ⟨.statement, form.typeName⟩
termination_by structural node => node

/-- The texts of a list of statements. -/
def statements (level : Int) : List Node → Except Unprintable (List Text)
  | [] => .ok []
  | node :: rest => do
    let body ← statementBody level node
    return layout.commented level node.comments body :: (← statements level rest)
termination_by structural nodes => nodes

end

/-- A statement at a depth, after its comments. -/
def statement (level : Int) (node : Node) : Except Unprintable Text := do
  return layout.commented level node.comments (← layout.statementBody level node)

/-- The text of a whole module. -/
def program (node : Node) : Except Unprintable Text := do
  match ← layout.statements 0 node.statements with
  | [] => return []
  | lines => return Text.join "\n" lines ++ "\n"

end Printing

end Layout

end ElementWrapper
