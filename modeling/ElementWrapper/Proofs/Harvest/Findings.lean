import ElementWrapper.Harvest
import ElementWrapper.Proofs.Table

/-!
What each node of a module contributes to its metadata, said for the node alone. `content` puts the
contributions of a sequence of visits together: a class, an element and a parent are the last that
is found, a property or an event keeps the place of its first declaration and the rest of its last.
-/

namespace ElementWrapper

/-- A name of another module that is exported again. -/
structure Reexport where
  source : Text
  exported : Text
  imported : Text
  deriving DecidableEq

namespace Reexport

/-- The names that some exports of one module take, each with the name it has there. -/
def names (exports : List Reexport) : Table Text :=
  Table.latest (exports.map fun e => (e.exported, e.imported))

/-- The exports by module, the modules in the order in which they are first met. -/
def grouped (exports : List Reexport) : Table (Table Text) :=
  (exports.map (·.source)).eraseDups.map fun source =>
    (source, names (exports.filter (·.source = source)))

end Reexport

namespace Harvest

variable (config : WrapperConfig) (imports : ImportTable)

/-! ## Classes -/

/-- The name of a class that has one. -/
def className? (visit : Visit) : Option Text :=
  match visit.node.form with
  | .classDeclaration (some id) .. => some id.name
  | _ => none

/-- The comments before a class that has some. -/
def classComments? (visit : Visit) : Option (List Comment) :=
  match visit.node.form with
  | .classDeclaration .. =>
    if visit.node.comments.isEmpty then none else some visit.node.comments
  | _ => none

/-- The module that the parent of a class is the default export of, rewritten, if it lies among the
components. -/
def parentSource? (filename : Text) (visit : Visit) : Option Text :=
  match visit.node.form with
  | .classDeclaration _ (some superClass) .. => do
    let binding ← (superclassTarget superClass).bind imports.lookup
    let source ← (Substitution.applyAll config.parentSubstitutions binding.source).toOption
    if binding.isDefault ∧ source ≠ [] ∧
        Specifier.isInside config.start source filename config.componentsRoot
      then some source else none
  | _ => none

/-! ## Events -/

/-- The key of a getter or a field that is static and not computed. -/
def staticKey? (member : Node) : Option Node :=
  match member.form with
  | .classMethod key .get true false _ _ => some key
  | .classField key _ true false _ => some key
  | _ => none

/-- The only thing that a getter returns, or the value of a field. -/
def heldValue? (member : Node) : Option Node :=
  match member.form with
  | .classMethod _ _ _ _ _ (some body) =>
    match body.statements with
    | [.mk _ _ (.returnStatement value)] => value
    | _ => none
  | .classField _ value .. => value
  | _ => none

/-- The event that a static member declares. A member that holds nothing stands for its own
value. -/
def event? (visit : Visit) : Option (Text × EventMetadata) := do
  let name ← (← staticKey? visit.node).keyName?
  if Event.memberStart <+: name then
    some (name, {
      name := (heldValue? visit.node).getD visit.node
      comments := visit.node.comments
      location := visit.node.location })
  else none

/-! ## Decorators -/

/-- The function that a decorator calls by name, and the arguments. -/
def decoratorCall? (visit : Visit) : Option (Text × List Node) :=
  match visit.node.form with
  | .decorator (.mk _ _ (.call (.mk _ _ (.identifier name)) arguments)) => some (name, arguments)
  | _ => none

/-- The arguments of a decorator for the name of the element. -/
def elementArguments? (visit : Visit) : Option (List Node) := do
  let (name, arguments) ← decoratorCall? visit
  if name = config.elementDecorator then some arguments else none

/-- The value that an entry of an object gives to an option. -/
def optionValue? (option : Text) (entry : Node) : Option Node :=
  match entry.form with
  | .property key value false => if key.keyName? = some option then some value else none
  | _ => none

/-- The entries of an object in the place of the first argument. -/
def optionEntries (arguments : List Node) : List Node :=
  match arguments with
  | .mk _ _ (.object entries) :: _ => entries
  | _ => []

/-- The last value that some entries give to an option. -/
def lastValue? (option : Text) (entries : List Node) : Option Node :=
  (entries.filterMap (optionValue? option)).getLast?

/-- The policy that the value of an option asks for. -/
def policyOf (value : Node) : AttributePolicy :=
  match value.form with
  | .boolean present => .flag present
  | .string name _ => .named name
  | _ => .unspecified

/-- The property that a decorator of a field or of an accessor declares. -/
def declaration? (visit : Visit) : Option (Text × PropertyMetadata) := do
  let (name, arguments) ← decoratorCall? visit
  let binding ← imports.lookup name
  let parent ← visit.parent
  let key ← propertyKey? parent
  let property ← key.keyName?
  if binding.imported = propertyDecorator ∧ binding.source ∈ config.propertySources then
    some (property, {
      type := (lastValue? "type" (optionEntries arguments)).bind Node.identifierName?
      policy := ((lastValue? "attribute" (optionEntries arguments)).map policyOf).getD .unspecified
      comments := parent.comments
      location := visit.node.location })
  else none

/-! ## Exports -/

/-- What a specifier exports again: a name of the module that the export names, or one that was
imported before. -/
def reexport? (source : Option Node) (specifier : Node) : Option Reexport :=
  match specifier.form, source with
  | .exportSpecifier binding exported, some source =>
    some ⟨source.stringValue?.getD [], exported.name, binding.name⟩
  | .exportSpecifier binding exported, none => do
    let found ← imports.lookup binding.name
    if found.isNamespace then none else some ⟨found.source, exported.name, found.imported⟩
  | _, _ => none

/-- What an export of values exports again. -/
def reexports (visit : Visit) : List Reexport :=
  match visit.node.form with
  | .exportNamed _ specifiers source false => specifiers.filterMap (reexport? imports source)
  | _ => []

/-! ## The whole -/

/-- The last thing that is found. -/
def lastOf (find : Visit → Option α) (visits : List Visit) : Option α :=
  (visits.filterMap find).getLast?

/-- The metadata that a sequence of visits gives. -/
def content (filename : Text) (visits : List Visit) : Metadata where
  filename
  className := lastOf className? visits
  classComments := (lastOf classComments? visits).getD []
  elementName := (lastOf (elementArguments? config) visits).bind List.head?
  properties := Table.latest (visits.filterMap (declaration? config imports))
  events := Table.latest (visits.filterMap event?)
  parentSource := lastOf (parentSource? config imports filename) visits
  reexports := Reexport.grouped (visits.flatMap (reexports imports))

end Harvest

end ElementWrapper
