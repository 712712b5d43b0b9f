import ElementWrapper.Source.Grammar.Types

/-!
Expressions. An operand is a primary expression with accesses and calls after it; it is assigned to
if a sign of assignment follows. Unary operators stand before an operand, and binary ones bind by
their level: an expression at a level takes up operators of that level and of higher ones.
-/

namespace ElementWrapper.Source

/-- The binary operators, the longer ones first, with their levels. -/
def binaryOperators : List (String × Nat) :=
  [("===", 7), ("!==", 7), (">>>", 9), ("**", 12), ("&&", 3), ("||", 2), ("??", 1), ("==", 7),
   ("!=", 7), ("<=", 8), (">=", 8), ("<<", 9), (">>", 9), ("<", 8), (">", 8), ("&", 6), ("^", 5),
   ("|", 4), ("+", 10), ("-", 10), ("*", 11), ("/", 11), ("%", 11)]

/-- The operators that are words, with their level. -/
def wordOperators : List (String × Nat) := [("instanceof", 8), ("in", 8)]

/-- The signs of an assignment that also computes. -/
def assignmentOperators : List String :=
  [">>>=", "&&=", "||=", "??=", "**=", "<<=", ">>=", "+=", "-=", "*=", "/=", "%=", "^=", "&=", "|="]

/-- The level above all binary operators. -/
def unaryLevel : Nat := 13

namespace Rule

section

variable (run : Goal → Reader Tree)

/-! ## Templates -/

/-- The pieces of a template up to its closing quote. -/
def templateTail : Nat → Rule
  | 0 => failure
  | fuel + 1 => do
    match ← upcoming with
    | '`' :: _ => mark "`"
    | '$' :: '\x7b' :: _ =>
      let piece ← node "template_substitution" <|
        seq [mark "$\x7b", expressions run {}, mark "\x7d"]
      return piece ++ (← templateTail fuel)
    | '\\' :: rest =>
      match escapeLength rest with
      | some n => do
        modify (·.advance (n + 1))
        templateTail fuel
      | none => failure
    | '\x00' :: _ => failure
    | _ :: _ => do
      modify (·.advance 1)
      templateTail fuel
    | [] => failure

/-- A template. -/
def template : Rule := node "template_string" do
  let quote ← mark "`"
  return quote ++ (← templateTail run ((← upcoming).length + 1))

/-! ## Functions and classes -/

/-- A block of statements. -/
def block (inExpression : Bool) : Rule := one (run (.block inExpression))

/-- A function as a value. -/
def functionExpression : Rule := do
  let children ← modified (softWord "async") <| seq [word "function", opt (mark "*"),
    opt (field "name" identifier), callSignature run false, field "body" (block run true)]
  let generator := children.any fun child => !child.named && child.kind = "*"
  node (if generator then "generator_function" else "function_expression") (pure children)

/-- The body of an arrow. -/
def arrowBody (context : Context) : Rule :=
  field "body" (either (block run true) (one (run (.expression context 0))))

/-- A function written with an arrow. -/
def arrowFunction (context : Context) : Rule :=
  let parameters := if context.returnTypes then callSignature run false
    else seq [opt (typeParameters run), field "parameters" (parameters run)]
  let marks := if context.returnTypes then ["=>", ":"] else ["=>"]
  let tail := seq [mark "=>", arrowBody run context]
  let single := seq [field "parameter" identifier, tail]
  let several := seq [ifAfterClosing marks parameters, tail]
  node "arrow_function" <| modified (softWord "async") (either single several)

/-- What a class extends. -/
def extendsClause : Rule :=
  let single := seq [
    field "value" (one (run (.expression { heritage := true } unaryLevel))),
    opt (field "type_arguments" (typeArguments run))]
  node "extends_clause" <| seq [word "extends", sepBy1 (mark ",") single]

/-- What a class extends and what it implements. -/
def classHeritage : Rule :=
  let implements := node "implements_clause" <|
    seq [word "implements", sepBy1 (mark ",") (type run)]
  node "class_heritage" <| either (seq [extendsClause run, opt implements]) implements

/-- A class after its name. -/
def classTail : Rule :=
  seq [opt (field "type_parameters" (typeParameters run)), opt (classHeritage run),
    field "body" (one (run .classBody))]

/-- The name of a class. -/
def className : Rule := field "name" (nameBut "type_identifier" ["extends", "implements"])

/-- A class as a value. -/
def classExpression : Rule :=
  node "class" <| seq [decorators run, word "class", opt className, classTail run]

/-! ## Objects and arrays -/

/-- A method in an object or in a class. -/
def methodDefinition : Rule :=
  node "method_definition" <| modifiedBy methodModifiers <|
    seq [optionalName run, callSignature run false, field "body" (block run false)]

/-- An entry of an object. -/
def objectEntry : Rule :=
  firstOf [node "spread_element" (seq [mark "...", expression run]),
    node "pair" (seq [field "key" (propertyName run), mark ":",
      field "value" (expression run)]),
    methodDefinition run,
    name "shorthand_property_identifier"]

/-- An object. -/
def object : Rule :=
  node "object" <| seq [mark "\x7b", commaList (objectEntry run), mark "\x7d"]

/-- An array. -/
def array : Rule :=
  let spread := node "spread_element" <| seq [mark "...", expression run]
  node "array" <| seq [mark "[", commaList (either spread (expression run)), mark "]"]

/-- An assignment to a pattern. -/
def patternAssignment (context : Context) : Rule :=
  node "assignment_expression" <| seq [field "left" (destructuring run), equals,
    field "right" (one (run (.expression context 0)))]

/-- A value in braces or in brackets that nothing is assigned to, or an assignment to a pattern. -/
def literalOrPattern (context : Context) (literal : Rule) : Rule :=
  either (do
    let children ← literal
    let next ← lookPast
    require <| match next with
      | '=' :: c :: _ => c = '=' || c = '>'
      | '=' :: [] => false
      | _ => true
    return children) (patternAssignment run context)

/-! ## Operands -/

/-- An expression in brackets. -/
def parenthesized : Rule :=
  node "parenthesized_expression" <|
    seq [mark "(", expressions run {}, opt (field "type" (ascription run false)), mark ")"]

/-- An access to the member of a value. -/
def memberTail (target : Tree) (sign : Rule) : Rule :=
  node "member_expression" <| after (target.withField "object")
    [sign, field "property" (either privateName (name "property_identifier"))]

/-- An access to an element of a value. -/
def subscriptTail (target : Tree) (signs : List Rule) : Rule :=
  node "subscript_expression" <| after (target.withField "object")
    (signs ++ [mark "[", field "index" (expressions run {}), mark "]"])

/-- The accesses that the operand of `new` takes up. -/
def constructorTail (target : Tree) : Rule :=
  firstOf [memberTail target (mark "."), subscriptTail run target [],
    node "non_null_expression" (after target [markBut "!" ['=']]),
    node "call_expression" (after (target.withField "function")
      [field "arguments" (template run)])]

/-- The construction of an object. -/
def newExpression (primary : Rule) : Rule :=
  either (node "meta_property" (seq [word "new", mark ".", word "target"])) <|
    node "new_expression" <| seq [word "new",
      field "constructor" (one (extended (only primary) (constructorTail run))),
      opt (seq [opt (field "type_arguments" (typeArguments run)),
        field "arguments" (arguments run)]),
      opt (field "type_arguments" (typeArguments run))]

/-- An expression that begins with `import`. -/
def importExpression : Rule :=
  either (node "meta_property" (seq [word "import", mark ".", word "meta"]))
    (namedWord "import" "import")

/-- A module inside a module, which can stand as a value. -/
def internalModule : Rule :=
  node "internal_module" <| seq [softWord "namespace",
    field "name" (either string nestedName), opt (field "body" (block run true))]

/-- The words that are values of their own. -/
def valueWords : List String := ["this", "super", "null", "true", "false", "undefined"]

/-- A word as an operand. -/
def wordOperand (context : Context) (primary : Rule) : Rule := do
  let word := String.ofList (wordAt (← upcoming))
  if valueWords.contains word then namedWord word word
  else match word with
    | "function" => functionExpression run
    | "class" => classExpression run
    | "new" => newExpression run primary
    | "import" => importExpression
    | "async" => firstOf [functionExpression run, arrowFunction run context, identifier]
    | "namespace" => firstOf [internalModule run, arrowFunction run context, identifier]
    | _ => either (arrowFunction run context) identifier

/-- An expression seen under a type that is written before it. -/
def typeAssertion (context : Context) : Rule :=
  node "type_assertion" <| seq [typeArguments run, one (run (.expression context unaryLevel))]

/-- A primary expression, with a bound on how often `new` stands before `new`. -/
def primaryWithin (context : Context) : Nat → Rule
  | 0 => failure
  | fuel + 1 => do
    match ← upcoming with
    | '(' :: _ => either (arrowFunction run context) (parenthesized run)
    | '[' :: _ => literalOrPattern run context (array run)
    | '\x7b' :: _ => literalOrPattern run context (object run)
    | '`' :: _ => template run
    | '"' :: _ | '\'' :: _ => string
    | '/' :: _ => regex
    | '<' :: _ => either (arrowFunction run context) (typeAssertion run context)
    | '@' :: _ => classExpression run
    | '#' :: _ => privateName
    | c :: _ =>
      if c.isDigit || c = '.' then number
      else wordOperand run context (primaryWithin context fuel)
    | [] => failure

/-- A primary expression. -/
def primary (context : Context) : Rule := do
  primaryWithin run context ((← upcoming).length + 1)

/-- The sign before a member that may be missing. -/
def optionalChain : Rule := node "optional_chain" <|
  followedBy (fun next => !next.head?.any Char.isDigit) (mark "?.")

/-- What cannot begin an operand, so that type arguments before it are complete. -/
def endsOperand (context : Context) (next : List Char) : Bool :=
  match next with
  | [] => true
  | c :: _ => [')', ']', ',', ';', ':', '}', '.', '?', '=', '|', '&'].contains c ||
    (context.heritage && c = '\x7b')

/-- A call with type arguments, or type arguments alone. -/
def instantiation (context : Context) (target : Tree) : Rule :=
  either (node "call_expression" <| after (target.withField "function")
    [field "type_arguments" (typeArguments run), field "arguments" (arguments run)]) <| do
    require !context.heritage
    let children ← node "instantiation_expression" <|
      after target [field "type_arguments" (typeArguments run)]
    let ended := context.ends && endsStatement true false (← upcoming)
    require (ended || endsOperand context (← lookPast))
    return children

/-- An access or a call after an operand. -/
def postfixTail (context : Context) (target : Tree) : Rule :=
  firstOf [memberTail target (mark "."),
    subscriptTail run target [],
    node "call_expression" (after (target.withField "function")
      [field "arguments" (arguments run)]),
    node "call_expression" (after (target.withField "function")
      [field "arguments" (template run)]),
    node "non_null_expression" (after target [markBut "!" ['=']]),
    memberTail target optionalChain,
    subscriptTail run target [optionalChain],
    node "call_expression" (after (target.withField "function")
      [mark "?.", opt (field "type_arguments" (typeArguments run)),
        field "arguments" (arguments run)]),
    instantiation run context target]

/-- The kinds of functions that no access or call follows directly. -/
def closedKinds : List String := ["arrow_function", "assignment_expression", "type_assertion"]

/-- An operand with the accesses and calls after it. -/
def operand (context : Context) : Reader Tree :=
  extended (only (primary run context)) fun target => do
    require !(closedKinds.contains target.kind)
    require !(context.ends && endsStatement true false (← upcoming))
    postfixTail run context target

/-- The kinds of expressions that can be assigned to. -/
def assignable : List String :=
  ["identifier", "undefined", "member_expression", "subscript_expression", "non_null_expression"]

/-- An operand that can be assigned to. -/
def leftHand : Reader Tree := do
  let target ← operand run {}
  require (assignable.contains target.kind)
  return target

/-- A sign of an assignment that also computes. -/
def assignmentOperator : Rule := firstOf (assignmentOperators.map mark)

/-- An assignment to an operand. -/
def assignmentTail (context : Context) (target : Tree) : Rule := do
  require (assignable.contains target.kind || target.kind = "parenthesized_expression")
  let right := field "right" (one (run (.expression context 0)))
  let left := target.withField "left"
  either
    (node "assignment_expression" do
      return left :: (← continued context.ends true (seq [equals, right])))
    (node "augmented_assignment_expression" do
      return left ::
        (← continued context.ends true (seq [field "operator" assignmentOperator, right])))

/-- A count up or down after an operand. -/
def updateTail (context : Context) (target : Tree) : Rule :=
  node "update_expression" do
    return target.withField "argument" ::
      (← continued context.ends true (either (mark "++") (mark "--")))

/-- An operand, the assignment to it or its update. -/
def assignment (context : Context) : Rule := do
  let target ← operand run context
  firstOf [assignmentTail run context target, updateTail context target, pure [target]]

/-! ## Operators -/

/-- The unary operators that are words. -/
def unaryWords : List String := ["typeof", "void", "delete"]

/-- An operator before an operand. -/
def unary (context : Context) : Rule := do
  let rest ← upcoming
  let argument := one (run (.expression context unaryLevel))
  let prefixed (kind : String) (sign : Rule) :=
    node kind <| seq [field "operator" sign, field "argument" argument]
  match rest with
  | '+' :: '+' :: _ => prefixed "update_expression" (mark "++")
  | '-' :: '-' :: _ => prefixed "update_expression" (mark "--")
  | '!' :: _ => prefixed "unary_expression" (mark "!")
  | '~' :: _ => prefixed "unary_expression" (mark "~")
  | '+' :: _ => prefixed "unary_expression" (mark "+")
  | '-' :: _ => prefixed "unary_expression" (mark "-")
  | _ =>
    let word := String.ofList (wordAt rest)
    if unaryWords.contains word then prefixed "unary_expression" (Rule.word word)
    else match word with
      | "await" => node "await_expression" <| seq [Rule.word "await", argument]
      | "yield" => node "yield_expression" <| do
        let head ← Rule.word "yield"
        let argument := one (run (.expression context 0))
        return head ++ (← opt (continued context.ends true
          (either (seq [mark "*", argument]) argument)))
      | _ => assignment run context

/-- A binary operator of at least a level, with its level. -/
def binaryOperator (context : Context) (level : Nat) : Reader (Tree × Nat) := do
  let rest ← upcoming
  let word := String.ofList (wordAt rest)
  require !(assignmentOperators.any fun sign => sign.toList.isPrefixOf rest)
  require !("=>".toList.isPrefixOf rest)
  match binaryOperators.find? fun (sign, _) => sign.toList.isPrefixOf rest with
  | some (sign, n) =>
    require (level ≤ n)
    return (← token sign false sign.length, n)
  | none =>
    match wordOperators.find? fun (sign, _) => sign = word with
    | some (sign, n) =>
      require (level ≤ n && (context.operatorIn || sign ≠ "in"))
      return (← token sign false sign.length, n)
    | none => failure

/-- The right operand of a binary operator. Only powers group from the right. -/
def rightLevel (level : Nat) : Nat := if level = 12 then 12 else level + 1

/-- A binary operator and its right operand after the left one. -/
def binaryTail (context : Context) (level : Nat) (left : Tree) : Rule :=
  node "binary_expression" do
    let between ← gap context.ends true
    let (operator, n) ← binaryOperator context level
    let right := field "right" (one (run (.expression context (rightLevel n))))
    return left.withField "left" :: between ++ (operator.withField "operator") ::
      (← andThen [right])

/-- A question mark that asks for a choice and not for a member or a type. -/
def choiceMark : Rule := do
  match ← upcoming with
  | '?' :: next =>
    require !(['?', '.'].any fun c => next.head? = some c)
    let after := next.dropWhile isLayout
    require !([':', ')', ','].any fun c => after.head? = some c)
    mark "?"
  | _ => failure

/-- A choice after its condition. -/
def choiceTail (context : Context) (condition : Tree) : Rule :=
  node "ternary_expression" do
    let head ← continued context.ends true choiceMark
    let alternative := field "alternative" (one (run (.expression context 0)))
    let branches (returnTypes : Bool) := andThen [
      field "consequence" (one (run (.expression { returnTypes } 0))), mark ":", alternative]
    return condition.withField "condition" :: head ++ (← either (branches false) (branches true))

/-- A type that an expression is seen under. -/
def ascribedTail (context : Context) (value : Tree) : Rule :=
  let typed := one (run (.type context.ends))
  either
    (node "as_expression" do
      return value :: (← continued context.ends true
        (seq [word "as", either (word "const") typed])))
    (node "satisfies_expression" do
      return value :: (← continued context.ends true (seq [word "satisfies", typed])))

/-- An expression at a level. -/
def expressionRule (context : Context) (level : Nat) : Reader Tree :=
  if unaryLevel ≤ level then only (unary run context)
  else extended (only (unary run context)) fun left => do
    if level = 0 then
      firstOf [binaryTail run context level left, choiceTail run context left,
        ascribedTail run context left]
    else if level ≤ 1 then
      either (binaryTail run context level left) (choiceTail run context left)
    else binaryTail run context level left

end

end Rule

end ElementWrapper.Source
