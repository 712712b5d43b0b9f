import ElementWrapper.Module.Node

/-!
Bodies: the items between two braces, or in a whole module, gathered into members. A comment belongs
to the next member. A decorator that stands beside the members belongs to the next member too, ahead
of the decorators that the member has itself.
-/

namespace ElementWrapper.Source

/-- What stands in a body. -/
inductive Item where
  | comment (value : Comment)
  | decorator (node : Node)
  | member (node : Node)

namespace Item

/-- A member with comments ahead of its own. -/
def commented (comments : List Comment) (node : Node) : Node :=
  node.withComments (comments ++ node.comments)

/-- A member of a class with decorators ahead of its own, after the decorators that it cannot
take. -/
def decorated (decorators : List Node) : Node → List Node × Node
  | .mk location comments form =>
    match form with
    | .classMethod key kind static computed own body =>
      ([], .mk location comments (.classMethod key kind static computed (decorators ++ own) body))
    | .classField key value static computed own =>
      ([], .mk location comments (.classField key value static computed (decorators ++ own)))
    | .raw kind text operands =>
      ([], .mk location comments (.raw kind text (decorators ++ operands)))
    | form => (decorators, .mk location comments form)

/-- An exported class without comments of its own takes the comments before the export. -/
def shareComments : Node → Node
  | .mk location comments form =>
    let shared (declaration : Node) : Node :=
      match declaration with
      | .mk place [] (.classDeclaration id superClass decorators body) =>
        .mk place comments (.classDeclaration id superClass decorators body)
      | other => other
    match form with
    | .exportNamed declaration specifiers source typeOnly =>
      .mk location comments (.exportNamed (declaration.map shared) specifiers source typeOnly)
    | .exportDefault declaration => .mk location comments (.exportDefault (shared declaration))
    | form => .mk location comments form

/-- The members of a class, given the comments and the decorators that wait for the next one.
Decorators after the last member stay as they are. -/
def classMembers (comments : List Comment) (decorators : List Node) : List Item → List Node
  | [] => decorators
  | comment value :: rest => classMembers (comments ++ [value]) decorators rest
  | decorator node :: rest => classMembers comments (decorators ++ [node]) rest
  | member node :: rest =>
    let (loose, node) := decorated decorators node
    loose ++ commented comments node :: classMembers [] [] rest

/-- The statements of a body, given the comments that wait for the next one. -/
def statements (comments : List Comment) : List Item → List Node
  | [] => []
  | comment value :: rest => statements (comments ++ [value]) rest
  | decorator node :: rest | member node :: rest =>
    shareComments (commented comments node) :: statements [] rest

/-- The entries of an object, given the comments that wait for the next one. -/
def entries (comments : List Comment) : List Item → List Node
  | [] => []
  | comment value :: rest => entries (comments ++ [value]) rest
  | decorator node :: rest | member node :: rest =>
    node.withComments comments :: entries [] rest

end Item

end ElementWrapper.Source
