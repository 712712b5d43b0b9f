import ElementWrapper.Config
import ElementWrapper.Failure
import ElementWrapper.Metadata
import ElementWrapper.Module.Imports
import ElementWrapper.Module.Traversal
import ElementWrapper.PropertyType
import ElementWrapper.Specifier

/-!
Harvesting the metadata of a component module. `Harvest.step` says what one node adds, and `harvest`
goes through the nodes of the module in order, parents first. The first node that breaks a rule ends
the harvest with a complaint.

Beside the metadata a harvest leaves notes for the log; `Harvest.log` lists them.
-/

namespace ElementWrapper

namespace Harvest

/-- The class that a superclass expression refers to: itself, or what is handed first to a chain of
mixins. -/
def superclassTarget (node : Node) : Option Text :=
  node.fold fun _ _ form =>
    match form with
    | .identifier name => some name
    | .call _ (first :: _) => first.2
    | _ => none

/-- The name of the decorator that declares a property. -/
def propertyDecorator : Text := "property"

section

variable (config : WrapperConfig) (imports : ImportTable)

/-! ## Classes and exports -/

/-- The module that the parent of a class is the default export of, after rewriting, and whether it
lies among the components. -/
def parentModule (filename : Text) (superClass : Option Node) :
    Except Failure (Option (Text × Bool)) := do
  match (superClass.bind superclassTarget).bind imports.lookup with
  | none => return none
  | some binding =>
    if !binding.isDefault then return none
    let source ← (Substitution.applyAll config.parentSubstitutions binding.source).mapError .pattern
    return some (source, Specifier.isInside config.start source filename config.componentsRoot)

/-- What a class adds. -/
def visitClass (m : Metadata) (comments : List Comment) (id superClass : Option Node) :
    Except Failure Metadata := do
  let m := match ← parentModule config imports m.filename superClass with
    | some (source, true) => m.setParentSource (some source)
    | _ => m
  let m := if comments.isEmpty then m else { m with classComments := comments }
  return match id with
    | some id => { m with className := some id.name }
    | none => m

/-- What an export adds: names of other modules, be they named here or imported before. -/
def visitExport (m : Metadata) (specifiers : List Node) (source : Option Node) : Metadata :=
  let add (m : Metadata) (specifier : Node) : Metadata :=
    match specifier.form with
    | .exportSpecifier binding exported =>
      match source with
      | some source => m.addExport (source.stringValue?.getD []) exported.name binding.name
      | none =>
        match imports.lookup binding.name with
        | some found =>
          if found.isNamespace then m else m.addExport found.source exported.name found.imported
        | none => m
    | _ => m
  specifiers.foldl add m

/-! ## Events -/

/-- The complaint about a getter for an event that does not just return its name. -/
def getterMessage : Text :=
  "`static get eventFoo` must have and be only with a return statement" ++
    " with a string literal or a template literal."

/-- The complaint about a field for an event whose value is not its name. -/
def fieldMessage : Text :=
  "`static eventFoo` must refer to a string literal or a template literal."

/-- The name of the event for which a member with a key stands. -/
def eventName? (key : Node) : Option Text := key.keyName?.filter Event.isMember

/-- The only thing that a getter returns, if it is a string or a template. -/
def returned (location : Option Location) (body : Option Node) : Except Failure Node :=
  let statements := (body.map Node.statements).getD []
  let complaint := Failure.complaint getterMessage
    (match statements with
      | statement :: _ => statement.location
      | [] => location)
  match statements with
  | [statement] =>
    match statement.form with
    | .returnStatement (some argument) =>
      if argument.isStringLike then .ok argument else .error complaint
    | _ => .error complaint
  | _ => .error complaint

/-- The value of a field, if it is a string or a template. -/
def fieldValue (location : Option Location) (value : Option Node) : Except Failure Node :=
  match value with
  | some value =>
    if value.isStringLike then .ok value
    else .error (.complaint fieldMessage value.location)
  | none => .error (.complaint fieldMessage location)

/-! ## Decorators -/

/-- The complaint about an element without a name. -/
def elementMessage : Text := "`@customElement()` must be called with the custom element name."

/-- The complaint about a property that is no member of a class. -/
def targetMessage : Text := "`@property()` must target class properties."

/-- The complaint about the type of a property. -/
def typeMessage : Text := "`type` in `@property` must point to an identifier."

/-- The complaint about the attribute of a property. -/
def attributeMessage : Text :=
  "`attribute` in `@property` must point to a boolean literal or a string literal."

/-- The property with one more option. -/
def addOption (property : PropertyMetadata) (option : Node) : Except Failure PropertyMetadata :=
  match option.form with
  | .property key value false =>
    if key.keyName? = some ("type" : Text) then
      match value.form with
      | .identifier name => .ok { property with type := some name }
      | _ => .error (.complaint typeMessage value.location)
    else if key.keyName? = some ("attribute" : Text) then
      match value.form with
      | .boolean present => .ok { property with policy := .flag present }
      | .string name _ => .ok { property with policy := .named name }
      | _ => .error (.complaint attributeMessage value.location)
    else .ok property
  | _ => .ok property

/-- The property that the arguments of its decorator describe. -/
def propertyOf (location : Option Location) (parent : Option Node) (arguments : List Node) :
    Except Failure PropertyMetadata := do
  let options := match arguments.head?.map Node.form with
    | some (.object properties) => properties
    | _ => []
  let property ← options.foldlM addOption { location }
  return { property with comments := (parent.map Node.comments).getD [] }

/-- The key of a member that a property can be declared by. -/
def propertyKey? (member : Node) : Option Node :=
  match member.form with
  | .classField key .. => some key
  | .classMethod key .get .. | .classMethod key .set .. => some key
  | _ => none

/-- What the decorator for the name of an element adds. -/
def visitElement (m : Metadata) (call : Node) (arguments : List Node) : Except Failure Metadata :=
  match arguments with
  | name :: _ =>
    if name.isStringLike then .ok { m with elementName := some name }
    else .error (.complaint elementMessage name.location)
  | [] => .error (.complaint elementMessage call.location)

/-- What the decorator for a property adds. -/
def visitProperty (m : Metadata) (location : Option Location) (parent : Option Node)
    (arguments : List Node) : Except Failure Metadata := do
  let property ← propertyOf location parent arguments
  match parent.bind propertyKey? with
  | none =>
    let place := match parent with
      | some parent => parent.location
      | none => location
    throw (.complaint targetMessage place)
  | some key =>
    return match key.keyName? with
      | some name => m.putProperty name property
      | none => m

/-- The name of the function that an expression calls, and the arguments. -/
def namedCall? (expression : Node) : Option (Text × List Node) :=
  match expression.form with
  | .call callee arguments => callee.identifierName?.map (·, arguments)
  | _ => none

/-- Whether a function is the decorator for properties. -/
def declaresProperty (name : Text) : Bool :=
  imports.isNamedImport name config.propertySources propertyDecorator

/-- What a decorator adds. -/
def visitDecorator (m : Metadata) (visit : Visit) (expression : Node) : Except Failure Metadata :=
  match namedCall? expression with
  | none => .ok m
  | some (name, arguments) => do
    let m ← if name = config.elementDecorator then visitElement m expression arguments else pure m
    if declaresProperty config imports name then
      visitProperty m visit.node.location visit.parent arguments
    else return m

/-! ## Walking -/

/-- What a node adds. -/
def step (m : Metadata) (visit : Visit) : Except Failure Metadata :=
  match visit.node with
  | .mk location comments form =>
    match form with
    | .classDeclaration id superClass _ _ => visitClass config imports m comments id superClass
    | .classMethod key .get true false _ body =>
      match eventName? key with
      | some name => do return m.putEvent name ⟨← returned location body, comments, location⟩
      | none => .ok m
    | .classField key value true false _ =>
      match eventName? key with
      | some name => do return m.putEvent name ⟨← fieldValue location value, comments, location⟩
      | none => .ok m
    | .decorator expression => visitDecorator config imports m visit expression
    | .exportNamed _ specifiers source false => .ok (visitExport imports m specifiers source)
    | _ => .ok m

/-! ## Notes -/

/-- A remark about a harvest. -/
inductive Note where
  /-- The module of the parent class does not lie among the components. -/
  | parentOutside (source : Text)
  /-- The name of a property is computed, so that it is not known. -/
  | computedProperty (location : Option Location)
  /-- What was harvested. -/
  | harvested (filename : Text) (properties events : Nat) (element : Bool)

/-- The remarks about a node that breaks no rule. -/
def notes (m : Metadata) (visit : Visit) : List Note :=
  match visit.node.form with
  | .classDeclaration _ superClass _ _ =>
    match parentModule config imports m.filename superClass with
    | .ok (some (source, false)) => [.parentOutside source]
    | _ => []
  | .decorator expression =>
    match namedCall? expression, visit.parent.bind propertyKey? with
    | some (name, _), some key =>
      if declaresProperty config imports name && key.keyName?.isNone then
        [.computedProperty visit.node.location]
      else []
    | _, _ => []
  | _ => []

/-- The remarks about a sequence of nodes up to the one that breaks a rule. -/
def walkLog (m : Metadata) : List Visit → List Note
  | [] => [.harvested m.filename m.properties.length m.events.length m.elementName.isSome]
  | visit :: rest =>
    match step config imports m visit with
    | .ok next => notes config imports m visit ++ walkLog next rest
    | .error _ => []

end

/-- The remarks about the harvest of a module. -/
def log (config : WrapperConfig) (filename : Text) (program : Node) : List Note :=
  walkLog config (ImportTable.ofProgram program) { filename } program.visits

end Harvest

/-- The metadata of a module. -/
def harvest (config : WrapperConfig) (filename : Text) (program : Node) : Except Failure Metadata :=
  program.visits.foldlM (Harvest.step config (ImportTable.ofProgram program)) { filename }

end ElementWrapper
