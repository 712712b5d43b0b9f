import ElementWrapper.Source.Grammar.Basic

/-!
Types. A type binds its parts from the inside out: a primary type with brackets after it, an
intersection, a union, and at last the choice between two types. Arrows and constructors begin with
their parameters and reach as far as they can.
-/

namespace ElementWrapper.Source.Rule

/-! ## Balanced brackets -/

/-- What follows the bracket that closes `depth` open ones; strings and comments are passed over. -/
def afterClosing : (fuel depth : Nat) → List Char → Option (List Char)
  | 0, _, _ | _, _, [] => none
  | fuel + 1, depth, c :: rest =>
    match commentLength (c :: rest), stringLength (c :: rest) with
    | some n, _ | none, some n => afterClosing fuel depth (rest.drop (n - 1))
    | none, none =>
      if ['(', '[', '\x7b'].contains c then afterClosing fuel (depth + 1) rest
      else if [')', ']', '\x7d'].contains c then
        if depth ≤ 1 then some rest else afterClosing fuel (depth - 1) rest
      else afterClosing fuel depth rest

/-- What follows blanks and comments. -/
def pastComments : Nat → List Char → List Char
  | 0, rest => rest
  | fuel + 1, rest =>
    let rest := rest.dropWhile isSpace
    match commentLength rest with
    | some n => pastComments fuel (rest.drop n)
    | none => rest

/-- The rule succeeds only if one of some marks follows the bracket that closes the first one; where
the closing bracket is not found the rule is tried. -/
def ifAfterClosing (marks : List String) (rule : Rule) : Rule := do
  let rest ← upcoming
  require <| match rest with
    | '(' :: _ =>
      match afterClosing rest.length 0 rest with
      | some after =>
        let next := pastComments after.length after
        marks.any fun mark => mark.toList.isPrefixOf next
      | none => true
    | _ => true
  rule

section

variable (run : Goal → Reader Tree)

/-! ## Members of an interface -/

/-- The modifiers of a member of a type. -/
def memberModifiers : List Rule :=
  [accessibility, softWord "static", override, softWord "readonly"]

/-- The modifiers of a method that come next to its name. -/
def methodModifiers : List Rule :=
  memberModifiers ++ [softWord "async", firstOf [softWord "get", softWord "set", mark "*"]]

/-- The name of a member that may be left out. -/
def optionalName : Rule := seq [field "name" (propertyName run), opt (mark "?")]

/-- A method without a body. -/
def methodSignature (ends : Bool) : Rule :=
  node "method_signature" <|
    modifiedBy methodModifiers (seq [optionalName run, callSignature run ends])

/-- The names of a mapped type. -/
def mappedClause : Rule :=
  node "mapped_type_clause" <| seq [field "name" (name "type_identifier"), word "in",
    field "type" (type run), opt (seq [word "as", field "alias" (type run)])]

/-- The type of all members with names of a type. -/
def indexSignature (ends : Bool) : Rule :=
  let sign := seq [opt (either (mark "-") (mark "+")), word "readonly"]
  let key := seq [field "name" identifier, mark ":", field "index_type" (type run)]
  let marked (kind sign : String) := node kind <| seq [mark sign, one (run (.type ends))]
  node "index_signature" <| seq [opt sign, mark "[", either key (mappedClause run), mark "]",
    field "type" (firstOf [ascription run ends, marked "omitting_type_annotation" "-?:",
      marked "adding_type_annotation" "+?:", marked "opting_type_annotation" "?:"])]

/-- A member of an interface or of an object type. -/
def typeMember : Rule :=
  firstOf [indexSignature run true,
    node "construct_signature" (modified (word "abstract") (seq [word "new",
      opt (typeParameters run), field "parameters" (parameters run), opt (ascription run true)])),
    node "call_signature" (callSignature run true),
    methodSignature run true,
    node "property_signature" (modifiedBy memberModifiers
      (seq [optionalName run, opt (field "type" (ascription run true))]))]

/-- Nothing, before a closing brace. -/
def beforeBrace : Rule := do
  require ((← lookPast).head? = some '\x7d')
  return []

/-- The members of a type in braces. -/
def objectType (kind : String) : Rule :=
  let separated := do
    let children ← typeMember run
    return children ++ (← firstOf [andThen [mark ","], semicolon false, beforeBrace])
  node kind <| seq [mark "\x7b", opt (either (mark ",") (mark ";")), many separated, mark "\x7d"]

/-! ## Primary types -/

/-- The words of the built-in types. -/
def builtInTypes : List String :=
  ["any", "number", "boolean", "string", "symbol", "void", "unknown", "never", "object"]

/-- A built-in type. -/
def builtInType : Rule := do
  let word := String.ofList (wordAt (← upcoming))
  require (builtInTypes.contains word)
  return [← token "predefined_type" true word.length]

/-- A name with the names of its modules before it. -/
def nestedName : Rule :=
  one <| extended (only identifier) fun target =>
    node "nested_identifier" <| after (target.withField "object")
      [mark ".", field "property" (name "property_identifier")]

/-- The name of a type, with the names of its modules before it. -/
def typeName : Rule :=
  let nested := do
    match ← only nestedName with
    | .node "nested_identifier" _ _ _ start stop children =>
      match children.reverse with
      | .node _ _ missing _ s e _ :: rest =>
        let children := rest.reverse.map fun child =>
          if child.field = some "object" then child.withField "module" else child
        return [.node "nested_type_identifier" true false none start stop
          (children ++ [.node "type_identifier" true missing (some "name") s e []])]
      | [] => failure
    | _ => failure
  either nested (name "type_identifier")

/-- A named type with its arguments. -/
def namedType (ends : Bool) : Rule := do
  let named ← only typeName
  either (node "generic_type" (do
    let between ← gap ends false
    let arguments ← field "type_arguments" (typeArguments run)
    return named.withField "name" :: between ++ arguments)) (pure [named])

/-- The type of a value. -/
def typeQuery : Rule :=
  let target := firstOf [namedWord "this" "this",
    node "call_expression" (seq [field "function" (namedWord "import" "import"),
      field "arguments" (arguments run)]), identifier]
  let path := one <| extended (only target) fun object =>
    firstOf [
      node "member_expression" (after (object.withField "object")
        [mark ".", field "property" (either privateName (name "property_identifier"))]),
      node "subscript_expression" (after (object.withField "object")
        [mark "[", field "index" (firstOf [builtInType, string, number]), mark "]"])]
  node "type_query" <| seq [word "typeof", path, opt (typeArguments run)]

/-- A type taken from a module by its name. -/
def importedType : Rule :=
  one <| extended (tree "call_expression" (seq [field "function" (namedWord "import" "import"),
      field "arguments" (arguments run)])) fun object =>
    node "member_expression" <| after (object.withField "object")
      [mark ".", field "property" (name "property_identifier"), opt (typeArguments run)]

/-- A literal as a type. -/
def literalType : Rule :=
  let sign := either (mark "-") (mark "+")
  let words := [("true", "true"), ("false", "false"), ("null", "null"), ("undefined", "undefined")]
  node "literal_type" <| firstOf <|
    [node "unary_expression" (seq [field "operator" sign, field "argument" number]), number,
      string] ++ words.map fun (kind, word) => namedWord kind word

/-- A type of lists of known lengths. -/
def tupleType : Rule :=
  let rest := node "rest_type" <| seq [mark "...", type run]
  let element := do
    let first ← only (type run)
    either (node "optional_type" (after first [mark "?"])) (pure [first])
  let label := either (node "rest_pattern" (seq [mark "...", identifier])) identifier
  let named := do
    let children ← seq [field "name" label, opt (mark "?"), field "type" (ascription run false)]
    let optional := children.any fun child => !child.named && child.kind = "?"
    node (if optional then "optional_parameter" else "required_parameter") (pure children)
  node "tuple_type" <| seq [mark "[", commaList (firstOf [named, rest, element]), mark "]"]

/-- The pieces of a template type. -/
def templatePieces : Nat → Rule
  | 0 => failure
  | fuel + 1 => do
    match ← upcoming with
    | '`' :: _ => mark "`"
    | '$' :: '\x7b' :: _ =>
      let piece ← node "template_type" <| seq [mark "$\x7b", type run, mark "\x7d"]
      return piece ++ (← templatePieces fuel)
    | '\\' :: _ :: _ => do
      modify (·.advance 2)
      templatePieces fuel
    | _ :: _ => do
      modify (·.advance 1)
      templatePieces fuel
    | [] => failure

/-- A primary type before brackets. -/
def simpleType (ends : Bool) : Rule := do
  match ← upcoming with
  | '(' :: _ => node "parenthesized_type" <| seq [mark "(", type run, mark ")"]
  | '\x7b' :: _ => objectType run "object_type"
  | '[' :: _ => tupleType run
  | '`' :: rest => node "template_literal_type" do
    return (← mark "`") ++ (← templatePieces run (rest.length + 1))
  | '*' :: _ => do return [← token "existential_type" true 1]
  | '?' :: _ => node "flow_maybe_type" <| seq [mark "?", one (run (.primaryType ends))]
  | _ =>
    firstOf [literalType, typeQuery run, importedType run,
      node "index_type_query" (seq [word "keyof", one (run (.primaryType ends))]),
      node "readonly_type" (seq [word "readonly", one (run (.type ends))]),
      node "infer_type" (seq [word "infer", name "type_identifier"]),
      node "predefined_type" (seq [word "unique", word "symbol"]),
      node "this_type" (word "this"), word "const", nestedOrNamed]
where
  /-- A named type, unless the word is that of a built-in one. -/
  nestedOrNamed : Rule :=
    either (followedBy (fun next => next.head? ≠ some '.') builtInType) (namedType run ends)

/-- A primary type with the brackets after it. -/
def primaryType (ends : Bool) : Reader Tree :=
  extended (only (simpleType run ends)) fun element =>
    firstOf [
      node "array_type" (do
        return element :: (← continued ends false (seq [mark "[", mark "]"]))),
      node "lookup_type" (do
        return element :: (← continued ends false (seq [mark "[", type run, mark "]"])))]

/-- Operands of one sign, grouped from the left; the sign may also stand before the first one. -/
def chained (kind sign : String) (ends : Bool) (operand : Rule) : Rule := do
  let lead ← opt (mark sign)
  let first ← if lead.isEmpty then operand else andThen [operand]
  require (!first.isEmpty)
  let first ← if lead.isEmpty then pure first else node kind (pure (lead ++ first))
  one <| extended (only (pure first)) fun left =>
    node kind do return left :: (← continued ends false (seq [mark sign, operand]))

/-- A type that is no arrow. -/
def unionType (ends : Bool) : Rule :=
  chained "union_type" "|" ends (chained "intersection_type" "&" ends (one (primaryType run ends)))

/-- A choice between two types. -/
def conditionalType (ends : Bool) : Rule := do
  let left ← only (unionType run ends)
  either (node "conditional_type" (do
    let tail ← continued ends false (seq [word "extends", field "right" (type run), mark "?",
      field "consequence" (type run), mark ":", field "alternative" (one (run (.type ends)))])
    return left.withField "left" :: tail)) (pure [left])

/-- The type of a function. -/
def functionType (ends : Bool) : Rule :=
  ifAfterClosing ["=>"] <| node "function_type" <|
    seq [opt (typeParameters run), field "parameters" (parameters run), mark "=>",
      field "return_type" (firstOf [asserts run ends, typePredicate run ends,
        one (run (.type ends))])]

/-- The type of a constructor. -/
def constructorType (ends : Bool) : Rule :=
  node "constructor_type" <| modified (word "abstract") <|
    seq [word "new", opt (typeParameters run), field "parameters" (parameters run), mark "=>",
      field "type" (one (run (.type ends)))]

/-- A type. -/
def typeRule (ends : Bool) : Reader Tree := only do
  match ← upcoming with
  | '(' :: _ | '<' :: _ => either (functionType run ends) (conditionalType run ends)
  | _ => either (constructorType run ends) (conditionalType run ends)

end

end ElementWrapper.Source.Rule
