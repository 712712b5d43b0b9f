import ElementWrapper.Source.Grammar.Expressions

/-!
Bodies of classes. Decorators belong to the field after them, but stand beside the method after
them; before anything else in a class there are none. A field and a signature end like statements, a
method ends with its body.
-/

namespace ElementWrapper.Source.Rule

section

variable (run : Goal → Reader Tree)

/-- The words that cannot name a member where they could modify it. -/
def memberKeywords : List String := ["abstract", "accessor"]

/-- A field after its decorators. -/
def fieldTail : Rule :=
  let tail := seq [field "name" (propertyName run), opt (either (mark "?") (mark "!")),
    opt (field "type" (ascription run true)), opt (initializer run { ends := true })]
  let declared (rest : Rule) := firstOf [
    modifiedBy [softWord "declare", accessibility] rest,
    modifiedBy [accessibility, softWord "declare"] rest]
  let free := unlessWord memberKeywords tail
  declared <| firstOf [
    seq [word "abstract", modified (softWord "readonly") tail],
    seq [word "accessor", tail],
    seq [softWord "readonly", word "abstract", tail],
    seq [softWord "static", modifiedBy [override, softWord "readonly"] tail],
    modifiedBy [override, softWord "readonly"] free]

/-- A method of an abstract class without a body. -/
def abstractSignature : Rule :=
  node "abstract_method_signature" <| modified accessibility <| do
    let head ← word "abstract"
    let tail ← andThen [modifiedBy
      [override, firstOf [softWord "get", softWord "set", mark "*"]]
      (seq [optionalName run, callSignature run true])]
    require (!tail.isEmpty)
    return head ++ tail

/-- A block that runs when the class is made. -/
def staticBlock : Rule :=
  node "class_static_block" <| seq [softWord "static", field "body" (block run false)]

/-- A member that ends like a statement, or with a comma. -/
def endedMember (inExpression : Bool) (member : Rule) : Rule := do
  let children ← member
  return children ++ (← either (semicolon inExpression) (andThen [mark ","]))

/-- Whether the last token of a field belongs to an expression. -/
def hasValue (children : List Tree) : Bool :=
  children.any fun child => (child.child? "value").isSome

/-- A field with the decorators before it, up to its end. -/
def fieldDefinition (decorators : List Tree) : Rule := do
  let children ← node "public_field_definition" <|
    match decorators with
    | [] => fieldTail run
    | _ => do return decorators ++ (← andThen [fieldTail run])
  return children ++ (← either (semicolon (hasValue children)) (andThen [mark ","]))

/-- A method with the decorators before it. -/
def decoratedMethod (decorators : List Tree) : Rule :=
  match decorators with
  | [] => methodDefinition run
  | _ => do
    let tail ← andThen [methodDefinition run]
    require (!tail.isEmpty)
    return decorators ++ tail

/-- A method without a body, up to its end. -/
def endedSignature : Rule := do
  let children ← methodSignature run true
  return children ++ (← firstOf [bodilessEnd, andThen [mark ","]])

/-- A member of a class with the decorators before it. -/
def classMember : Rule := do
  match ← upcoming with
  | ';' :: _ => mark ";"
  | '@' :: _ => do
    let decorators ← decorators run
    either (decoratedMethod run decorators) (fieldDefinition run decorators)
  | _ =>
    firstOf [unlessWord memberKeywords (methodDefinition run), staticBlock run,
      endedMember false (abstractSignature run), endedMember false (indexSignature run true),
      unlessWord memberKeywords (endedSignature run), fieldDefinition run []]

/-- The body of a class. -/
def classBodyRule : Reader Tree :=
  tree "class_body" <| seq [mark "\x7b", many (classMember run), mark "\x7d"]

end

end ElementWrapper.Source.Rule
