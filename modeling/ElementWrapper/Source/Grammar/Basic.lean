import ElementWrapper.Source.Literals

/-!
The rules that expressions, types, classes and statements have in common: names, annotations,
patterns, parameters and decorators. The rules are written against an argument `run` that reads any
goal. The goals are tied to their rules where the parser is put together.
-/

namespace ElementWrapper.Source

namespace Rule

/-- The comments before the next token, unless a statement that may end ends here. -/
def gapWithin (ends inExpression : Bool) : Nat → Rule
  | 0 => pure []
  | fuel + 1 => do
    require !(ends && endsStatement inExpression false (← upcoming))
    skipSpace
    match commentLength (← upcoming) with
    | some length =>
      return (← token Tree.commentKind true length) :: (← gapWithin ends inExpression fuel)
    | none => return []

/-- The way from the end of an operand to a token that goes on with it. -/
def gap (ends inExpression : Bool) : Rule := do
  gapWithin ends inExpression ((← upcoming).length + 1)

/-- The continuation of an operand after a gap. -/
def continued (ends inExpression : Bool) (rule : Rule) : Rule := do
  let between ← gap ends inExpression
  let children ← rule
  require (!children.isEmpty)
  return between ++ children

/-- The child of a construct extended by continuations as long as there are any. -/
def extendWithin (extend : Tree → Rule) : Nat → Tree → Reader Tree
  | 0, tree => pure tree
  | fuel + 1, tree => do
    match ← opt (extend tree) with
    | [larger] => extendWithin extend fuel larger
    | _ => return tree

/-- A construct extended by continuations as long as there are any. -/
def extended (first : Reader Tree) (extend : Tree → Rule) : Reader Tree := do
  let fuel := (← upcoming).length
  extendWithin extend fuel (← first)

/-- The only child that a rule yields. -/
def only (rule : Rule) : Reader Tree := do
  match ← rule with
  | [child] => return child
  | _ => failure

/-- Rules one after the other after a part that is read already. -/
def after (head : Tree) (rules : List Rule) : Rule := do
  let tail ← andThen rules
  require (!tail.isEmpty)
  return head :: tail

/-- A mark that is not the beginning of a longer one. -/
def markBut (s : String) (longer : List Char) : Rule :=
  followedBy (fun next => match next with
    | c :: _ => !longer.contains c
    | [] => true) (mark s)

/-- The sign between a name and its value. -/
def equals : Rule := markBut "=" ['=', '>']

/-- A part with a modifier before it. The word of the modifier may also be the part itself. -/
def modified (modifier rest : Rule) : Rule :=
  either (do
    let word ← modifier
    let children ← andThen [rest]
    require (!children.isEmpty)
    return word ++ children) rest

/-- A part with several modifiers before it, each of which may be missing. -/
def modifiedBy (modifiers : List Rule) (rest : Rule) : Rule := modifiers.foldr modified rest

/-- The word of a modifier, unless a statement ends after it. -/
def softWord (s : String) : Rule :=
  followedBy (fun next => !endsStatement false false next) (word s)

/-- A name that is a construct of a kind and begins with a number sign. -/
def privateName : Rule := do
  match ← upcoming with
  | '#' :: rest =>
    let length := wordLength rest
    require (0 < length)
    return [← token "private_property_identifier" true (length + 1)]
  | _ => failure

/-- A word as a variable. -/
def identifier : Rule := name "identifier"

/-- A keyword as a construct of a kind. -/
def namedWord (kind s : String) : Rule := do
  require (wordAt (← upcoming) = s.toList)
  return [← token kind true s.length]

/-- A rule that does not begin with one of some keywords. -/
def unlessWord (keywords : List String) (rule : Rule) : Rule := do
  let word := wordAt (← upcoming)
  require !(keywords.any fun keyword => keyword.toList = word)
  rule

/-- A word as a construct of a kind unless it is one of some keywords. -/
def nameBut (kind : String) (keywords : List String) : Rule := unlessWord keywords (name kind)

/-- The modifier that says who may see a member. -/
def accessibility : Rule := do
  let word := String.ofList (wordAt (← upcoming))
  require (["public", "private", "protected"].contains word)
  return [← token "accessibility_modifier" true word.length]

/-- The modifier of a member that replaces an inherited one. -/
def override : Rule := namedWord "override_modifier" "override"

section

variable (run : Goal → Reader Tree)

/-- An expression inside brackets or before a mark. -/
def expression : Rule := one (run (.expression {} 0))

/-- An expression, or several of them between commas as one. -/
def expressions (context : Context) : Rule := do
  let first ← run (.expression context 0)
  let tail ← many (continued context.ends true
    (seq [mark ",", one (run (.expression context 0))]))
  if tail.isEmpty then return [first]
  else node "sequence_expression" (pure (first :: tail))

/-- A type inside brackets or before a mark. -/
def type : Rule := one (run (.type false))

/-- The arguments of a type. -/
def typeArguments : Rule :=
  node "type_arguments" <| seq [mark "<", sepBy1 (mark ",") (type run), opt (mark ","), mark ">"]

/-- The parameters of a type. -/
def typeParameters : Rule :=
  let constraint := node "constraint" <| seq [either (word "extends") (mark ":"), type run]
  let default := node "default_type" <| seq [equals, type run]
  let parameter := node "type_parameter" <|
    modified (word "const") (seq [name "type_identifier", opt constraint, opt default])
  node "type_parameters" <|
    seq [mark "<", sepBy1 (mark ",") parameter, opt (mark ","), mark ">"]

/-- The type that is written after a name. -/
def ascription (ends : Bool) : Rule :=
  node "type_annotation" <| seq [mark ":", one (run (.type ends))]

/-- What a function says about an argument when it returns true. -/
def typePredicate (ends : Bool) : Rule :=
  node "type_predicate" <|
    seq [either (namedWord "this" "this") identifier, word "is", one (run (.type ends))]

/-- What a function says about an argument when it returns. -/
def asserts (ends : Bool) : Rule :=
  node "asserts" <| seq [word "asserts",
    firstOf [typePredicate run ends, namedWord "this" "this", identifier]]

/-- The result type of a function. -/
def returnType (ends : Bool) : Rule :=
  firstOf [node "asserts_annotation" (seq [mark ":", asserts run ends]),
    node "type_predicate_annotation" (seq [mark ":", typePredicate run ends]),
    ascription run ends]

/-- A value given where a name is declared. -/
def initializer (context : Context) : Rule :=
  seq [equals, field "value" (one (run (.expression context 0)))]

/-- A name computed by an expression. -/
def computedName : Rule :=
  node "computed_property_name" <| seq [mark "[", expression run, mark "]"]

/-- The name of a member or of an entry. -/
def propertyName : Rule :=
  firstOf [name "property_identifier", privateName, string, number, computedName run]

/-! ## Patterns -/

/-- A target that may have a default. -/
def withDefault (kind : String) (target : Rule) : Rule := do
  let head ← target
  let tail ← opt (do
    let tail ← andThen [equals, expression run]
    require (1 < tail.length)
    return tail)
  if tail.isEmpty then return head else node kind (pure (head ++ tail))

/-- A target that takes what is left. -/
def restPattern : Rule :=
  node "rest_pattern" <| seq [mark "...", one (run .pattern)]

/-- An entry of a pattern in braces. -/
def entryPattern : Rule :=
  let value := withDefault run "assignment_pattern" (one (run .pattern))
  firstOf [
    node "pair_pattern" (seq [field "key" (propertyName run), mark ":", field "value" value]),
    restPattern run,
    withDefault run "object_assignment_pattern" (name "shorthand_property_identifier_pattern")]

/-- A pattern in braces. -/
def objectPattern : Rule :=
  node "object_pattern" <| seq [mark "\x7b", commaList (entryPattern run), mark "\x7d"]

/-- A pattern in brackets. -/
def arrayPattern : Rule :=
  node "array_pattern" <|
    seq [mark "[", commaList (withDefault run "assignment_pattern" (one (run .pattern))), mark "]"]

/-- A pattern that takes a value apart. -/
def destructuring : Rule := either (objectPattern run) (arrayPattern run)

/-- A target of an assignment or a parameter. -/
def pattern : Rule := firstOf [restPattern run, destructuring run, one (run .leftHand)]

/-- A variable, or a pattern of variables. -/
def binding : Rule := either (destructuring run) identifier

/-! ## Calls, decorators and parameters -/

/-- The arguments of a call. -/
def arguments : Rule :=
  let spread := node "spread_element" <| seq [mark "...", expression run]
  node "arguments" <| seq [mark "(", commaList (either spread (expression run)), mark ")"]

/-- A name with names after dots. -/
def dotted : Reader Tree :=
  extended (only identifier) fun target =>
    node "member_expression" <| after (target.withField "object")
      [mark ".", field "property" (name "property_identifier")]

/-- A name, or a call of it. -/
def decoratorTarget : Rule := do
  let target ← dotted
  either (node "call_expression" <| after (target.withField "function")
    [opt (typeArguments run), field "arguments" (arguments run)]) (pure [target])

/-- A decorator. -/
def decorator : Rule :=
  let parenthesized := node "parenthesized_expression" <|
    seq [mark "(", decoratorTarget run, mark ")"]
  node "decorator" <| seq [mark "@", either parenthesized (decoratorTarget run)]

/-- The decorators before a construct. -/
def decorators : Rule := field "decorator" (many (decorator run))

/-- A parameter of a function. -/
def parameter : Rule := do
  let target := field "pattern" (either (namedWord "this" "this") (one (run .pattern)))
  let children ← seq [decorators run,
    modifiedBy [accessibility, override, word "readonly"] target,
    opt (mark "?"), opt (ascription run false), opt (initializer run {})]
  let optional := children.any fun child => !child.named && child.kind = "?"
  node (if optional then "optional_parameter" else "required_parameter") (pure children)

/-- The parameters of a function. -/
def parameters : Rule :=
  node "formal_parameters" <|
    seq [mark "(", opt (seq [sepBy1 (mark ",") (parameter run), opt (mark ",")]), mark ")"]

/-- The parameters of a function and its result type. -/
def callSignature (ends : Bool) : Rule :=
  seq [opt (typeParameters run), field "parameters" (parameters run), opt (returnType run ends)]

end

end Rule

end ElementWrapper.Source
