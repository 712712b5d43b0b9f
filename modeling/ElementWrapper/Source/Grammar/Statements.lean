import ElementWrapper.Source.Grammar.Classes

/-!
Statements and declarations. The word that a statement begins with tells what it is. Some of these
words are also names: then a statement that does not read as a declaration is an expression, and so
is one whose word ends its line.
-/

namespace ElementWrapper.Source.Rule

section

variable (run : Goal → Reader Tree)

/-- A statement inside another one. -/
def statement : Rule := one (run .statement)

/-- A condition in brackets. -/
def condition (name : String) : Rule := field name (parenthesized run)

/-- The words that begin a statement and cannot be names there. -/
def statementWords : List String :=
  ["if", "switch", "for", "while", "do", "try", "with", "break", "continue", "return", "throw",
   "debugger", "var", "const", "interface", "enum", "abstract"]

/-- An expression as a statement. -/
def expressionStatement : Rule := do
  let word := String.ofList (wordAt (← upcoming))
  require !(statementWords.contains word)
  node "expression_statement" <| ended true (expressions run { ends := true })

/-! ## Declarations -/

/-- A variable with its type and its value. -/
def declarator (context : Context) : Reader (List Tree × Bool) := do
  let definite := seq [field "name" identifier, mark "!",
    field "type" (ascription run context.ends)]
  let plain := seq [field "name" (binding run), opt (field "type" (ascription run context.ends)),
    opt (initializer run context)]
  let children ← node "variable_declarator" (either definite plain)
  return (children, hasValue children)

/-- Variables between commas, and whether the last of them has a value. -/
def declaratorsWithin (context : Context) : Nat → Reader (List Tree × Bool)
  | 0 => failure
  | fuel + 1 => do
    let (first, valued) ← declarator run context
    let before ← get
    let comma ← opt (continued context.ends valued (mark ","))
    if comma.isEmpty then
      set before
      return (first, valued)
    let between ← comments
    let (rest, valued) ← declaratorsWithin context fuel
    return (first ++ comma ++ between ++ rest, valued)

/-- The declaration of variables after its word, up to its end. -/
def declarationOf (kind : String) (word : Rule) : Rule :=
  node kind do
    let head ← word
    let between ← comments
    let (declarators, valued) ←
      declaratorsWithin run { ends := true } ((← upcoming).length + 1)
    return head ++ between ++ declarators ++ (← semicolon valued)

/-- The declaration of variables. -/
def variableDeclaration : Rule :=
  firstOf [declarationOf run "variable_declaration" (word "var"),
    declarationOf run "lexical_declaration" (field "kind" (word "const")),
    declarationOf run "lexical_declaration" (field "kind"
      (followedBy (fun next => !endsStatement true false next) (word "let")))]

/-- A function, with or without a body. -/
def functionDeclaration : Rule := do
  let async := followedBy (fun next => !endsStatement true false next) (word "async")
  let head ← modified async <| seq [word "function", opt (mark "*"),
    field "name" identifier, callSignature run true]
  let generator := head.any fun child => !child.named && child.kind = "*"
  let body ← opt (do
    let body ← andThen [field "body" (block run false)]
    require (!body.isEmpty)
    return body)
  if body.isEmpty then
    node "function_signature" do return head ++ (← bodilessEnd)
  else
    let kind := if generator then "generator_function_declaration" else "function_declaration"
    node kind (pure (head ++ body))

/-- A class with a name. -/
def classDeclaration : Rule := do
  let children ← seq [decorators run, opt (word "abstract"), word "class", className,
    classTail run]
  if children.any fun child => !child.named && child.kind = "abstract" then
    node "abstract_class_declaration" (pure children)
  else
    node "class_declaration" do
      return children ++ (← opt (closingWithin false ((← upcoming).length + 1)))

/-- A name of a module with its body. -/
def moduleTail : Rule :=
  seq [field "name" (either string nestedName), opt (field "body" (block run false))]

/-- A word that begins a declaration, unless a statement ends after it. -/
def declaring (s : String) : Rule :=
  followedBy (fun next => !endsStatement true false next) (word s)

/-- Another name for a type. -/
def typeAlias : Rule :=
  node "type_alias_declaration" <| ended false <|
    seq [declaring "type", field "name" (name "type_identifier"),
      opt (field "type_parameters" (typeParameters run)), equals,
      field "value" (one (run (.type true)))]

/-- The types of the names of an object. -/
def interfaceDeclaration : Rule :=
  let base := namedType run false
  let extending := node "extends_type_clause" <|
    seq [word "extends", sepBy1 (mark ",") (field "type" base)]
  node "interface_declaration" <|
    seq [word "interface", field "name" (name "type_identifier"),
      opt (field "type_parameters" (typeParameters run)), opt extending,
      field "body" (objectType run "interface_body")]

/-- A type with named values. -/
def enumDeclaration : Rule :=
  let valued := node "enum_assignment" <|
    seq [field "name" (propertyName run), initializer run {}]
  let member := either valued (field "name" (propertyName run))
  let body := node "enum_body" <| seq [mark "\x7b",
    opt (seq [sepBy1 (mark ",") member, opt (mark ",")]), mark "\x7d"]
  node "enum_declaration" <| modified (word "const") <|
    seq [word "enum", field "name" identifier, field "body" body]

/-- Another name for an imported value. -/
def importAlias : Rule :=
  node "import_alias" <| ended false <| seq [word "import", identifier, equals, nestedName]

/-- What the surroundings of a module declare. -/
def ambient (declaration : Rule) : Rule :=
  let member := ended false <| seq [word "module", mark ".", name "property_identifier", mark ":",
    one (run (.type true))]
  node "ambient_declaration" <| seq [declaring "declare",
    firstOf [seq [word "global", block run false], member, declaration]]

/-- A declaration, with a bound on how often `declare` stands before it. -/
def declarationWithin : Nat → Rule
  | 0 => failure
  | fuel + 1 =>
    firstOf [functionDeclaration run, classDeclaration run, enumDeclaration run,
      variableDeclaration run,
      node "module" (seq [declaring "module", moduleTail run]),
      node "internal_module" (seq [declaring "namespace", moduleTail run]),
      typeAlias run, interfaceDeclaration run, importAlias,
      ambient run (declarationWithin fuel)]

/-- A declaration. -/
def declaration : Rule := do declarationWithin run ((← upcoming).length + 1)

/-! ## Imports and exports -/

/-- A name under which a module exports a value. -/
def exportName : Rule := either string identifier

/-- An entry of a clause, after a word that makes it an entry of types. -/
def clauseEntry (kind : String) (entry : Rule) : Rule :=
  let complete := do
    let children ← entry
    let next ← lookPast
    require (next.head? = some ',' || next.head? = some '\x7d')
    return children
  node kind <| either complete (seq [either (word "type") (word "typeof"), complete])

/-- Entries in braces between commas. -/
def clause (kind : String) (entry : Rule) : Rule :=
  node kind <| seq [mark "\x7b", opt (seq [sepBy1 (mark ",") entry, opt (mark ",")]), mark "\x7d"]

/-- The names that an import declaration binds. -/
def importClause : Rule :=
  let specifier := clauseEntry "import_specifier" <|
    either (seq [field "name" exportName, word "as", field "alias" identifier])
      (field "name" identifier)
  let named := clause "named_imports" specifier
  let whole := node "namespace_import" <| seq [mark "*", word "as", identifier]
  node "import_clause" <| firstOf [whole, named,
    seq [identifier, opt (seq [mark ",", either whole named])]]

/-- The module that names are taken from. -/
def fromClause : Rule := seq [word "from", field "source" string]

/-- What is asked of the module that is imported. -/
def importAttribute : Rule :=
  node "import_attribute" <| seq [either (word "with") (word "assert"), object run]

/-- An import declaration. -/
def importStatement : Rule :=
  let required := node "import_require_clause" <|
    seq [identifier, mark "=", word "require", mark "(", field "source" string, mark ")"]
  let tail := firstOf [seq [importClause, fromClause], required, field "source" string]
  let typed := seq [either (word "type") (word "typeof"), tail]
  node "import_statement" do
    let children ← seq [word "import", either typed tail]
    let asked ← opt (continued true false (importAttribute run))
    return children ++ asked ++ (← semicolon false)

/-- The names that an export declaration gives away. -/
def exportClause : Rule :=
  clause "export_clause" <| clauseEntry "export_specifier" <|
    seq [field "name" exportName, opt (seq [word "as", field "alias" exportName])]

/-- An export declaration. -/
def exportStatement : Rule :=
  let whole := node "namespace_export" <| seq [mark "*", word "as", exportName]
  let value := ended true (field "value" (one (run (.expression { ends := true } 0))))
  let default := seq [word "default", either (field "declaration" (declaration run)) value]
  let finished (rule : Rule) := ended false (seq [word "export", rule])
  node "export_statement" <| firstOf [
    finished (seq [mark "*", fromClause]),
    finished (seq [whole, fromClause]),
    finished (seq [exportClause, fromClause]),
    finished exportClause,
    finished (seq [word "type", exportClause, fromClause]),
    finished (seq [word "type", exportClause]),
    finished (seq [word "as", word "namespace", identifier]),
    seq [word "export", mark "=", ended true (one (run (.expression { ends := true } 0)))],
    seq [word "export", word "import", importAlias],
    seq [decorators run, word "export",
      either default (field "declaration" (declaration run))]]

/-! ## Control flow -/

/-- A branch taken where a condition fails. -/
def elseClause : Rule := node "else_clause" <| seq [word "else", statement run]

/-- The header of a loop over the parts of a value. -/
def eachHeader : Rule :=
  let context : Context := { operatorIn := false }
  let left := firstOf [
    seq [field "kind" (word "var"), field "left" (binding run), opt (initializer run context)],
    seq [field "kind" (either (word "let") (word "const")), field "left" (binding run)],
    field "left" (firstOf [destructuring run, one (run .leftHand), parenthesized run])]
  seq [mark "(", left, field "operator" (either (word "in") (word "of")),
    field "right" (expressions run {}), mark ")"]

/-- A statement made of a semicolon. -/
def emptyStatement : Rule := do
  require ((← upcoming).head? = some ';')
  return [← token "empty_statement" true 1]

/-- The header of a counting loop. -/
def countHeader : Rule :=
  let ended (rule : Rule) := seq [rule, mark ";"]
  let first := firstOf [variableDeclaration run, ended (expressions run {}), emptyStatement]
  let test := either (ended (expressions run {})) emptyStatement
  seq [mark "(", first, test, opt (field "increment" (expressions run {})), mark ")"]

/-- A loop. -/
def forStatement : Rule :=
  either
    (node "for_in_statement" <| seq [word "for", opt (word "await"), eachHeader run,
      field "body" (statement run)])
    (node "for_statement" <| seq [word "for", countHeader run, field "body" (statement run)])

/-- The statements of a case, up to the next one. -/
def caseBody : Rule := many do
  let word := String.ofList (wordAt (← upcoming))
  require !(["case", "default"].contains word)
  statement run

/-- A choice among cases. -/
def switchStatement : Rule :=
  let case := node "switch_case" <|
    seq [word "case", field "value" (expressions run {}), mark ":", caseBody run]
  let default := node "switch_default" <| seq [word "default", mark ":", caseBody run]
  let body := node "switch_body" <| seq [mark "\x7b", many (either case default), mark "\x7d"]
  node "switch_statement" <| seq [word "switch", condition run "value", field "body" body]

/-- A block with what is done when it fails and when it ends. -/
def tryStatement : Rule :=
  let parameter := seq [mark "(", field "parameter" (binding run),
    opt (field "type" (ascription run false)), mark ")"]
  let handler := node "catch_clause" <|
    seq [word "catch", opt parameter, field "body" (block run false)]
  let finalizer := node "finally_clause" <| seq [word "finally", field "body" (block run false)]
  node "try_statement" <| seq [word "try", field "body" (block run false),
    opt (field "handler" handler), opt (field "finalizer" finalizer)]

/-- A label as the target of a jump. -/
def jump (kind s : String) : Rule :=
  node kind <| ended false do
    let head ← word s
    return head ++ (← opt (continued true false (field "label" (name "statement_identifier"))))

/-- A statement that may give a value away. -/
def returnStatement : Rule :=
  node "return_statement" do
    let head ← word "return"
    let value ← opt (continued true false (expressions run { ends := true }))
    return head ++ value ++ (← semicolon (!value.isEmpty))

/-- A statement with a label. -/
def labeled : Rule :=
  node "labeled_statement" <|
    seq [field "label" (name "statement_identifier"), mark ":", field "body" (statement run)]

/-- A loop that tests its condition after its body. -/
def doStatement : Rule :=
  node "do_statement" do
    let children ← seq [word "do", field "body" (statement run), word "while",
      condition run "condition"]
    return children ++ (← opt (semicolon false))

/-- The statement that a word begins. -/
def wordStatement (s : String) : Rule :=
  let orExpression (rule : Rule) := either rule (either (labeled run) (expressionStatement run))
  match s with
  | "import" => firstOf [importStatement run, importAlias, expressionStatement run]
  | "export" => orExpression (exportStatement run)
  | "if" =>
    node "if_statement" <| seq [word "if", condition run "condition",
      field "consequence" (statement run), opt (field "alternative" (elseClause run))]
  | "for" => forStatement run
  | "while" =>
    node "while_statement" <|
      seq [word "while", condition run "condition", field "body" (statement run)]
  | "do" => doStatement run
  | "switch" => switchStatement run
  | "try" => tryStatement run
  | "with" =>
    node "with_statement" <|
      seq [word "with", condition run "object", field "body" (statement run)]
  | "break" => jump "break_statement" s
  | "continue" => jump "continue_statement" s
  | "debugger" => node "debugger_statement" <| ended false (word "debugger")
  | "return" => returnStatement run
  | "throw" =>
    node "throw_statement" <| ended true <|
      seq [word "throw", expressions run { ends := true }]
  | "var" => variableDeclaration run
  | "const" => either (enumDeclaration run) (variableDeclaration run)
  | "enum" => enumDeclaration run
  | "interface" => interfaceDeclaration run
  | "abstract" => classDeclaration run
  | "class" => either (classDeclaration run) (expressionStatement run)
  | "let" => orExpression (variableDeclaration run)
  | "function" => either (functionDeclaration run) (expressionStatement run)
  | "async" => orExpression (functionDeclaration run)
  | "declare" => orExpression (ambient run (declaration run))
  | "type" => orExpression (typeAlias run)
  | "module" => orExpression (node "module" (seq [declaring "module", moduleTail run]))
  | _ => either (labeled run) (expressionStatement run)

/-- A statement. -/
def statementRule : Reader Tree := only do
  match ← upcoming with
  | '\x7b' :: _ => either (block run false) (expressionStatement run)
  | ';' :: _ => emptyStatement
  | '@' :: _ =>
    firstOf [exportStatement run, classDeclaration run, expressionStatement run]
  | rest =>
    let length := wordLength rest
    if length = 0 then expressionStatement run
    else wordStatement run (String.ofList (rest.take length))

/-! ## Blocks and programs -/

/-- A remark in the manner of a markup language, which takes up the rest of its line. -/
def markupComment : Rule := do
  let rest ← upcoming
  require ("<!--".toList.isPrefixOf rest || "-->".toList.isPrefixOf rest)
  let length := (rest.takeWhile fun c => !(['\n', '\u2028', '\u2029'].contains c)).length
  return [← token "html_comment" true length]

/-- A sequence of statements. -/
def statements : Rule := many (either markupComment (statement run))

/-- A block of statements. -/
def blockRule (inExpression : Bool) : Reader Tree :=
  tree "statement_block" <| seq [mark "\x7b", statements run, closing inExpression]

/-- A first line for the shell. -/
def shellLine : Rule := do
  let rest ← upcoming
  require ("#!".toList.isPrefixOf rest)
  return [← token "hash_bang_line" true (rest.takeWhile (· ≠ '\n')).length]

end

end ElementWrapper.Source.Rule
