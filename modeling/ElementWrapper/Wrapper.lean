import ElementWrapper.Config
import ElementWrapper.Failure
import ElementWrapper.Metadata
import ElementWrapper.Module.Imports
import ElementWrapper.Module.Lowering
import ElementWrapper.PropertyType
import ElementWrapper.Specifier

/-!
The wrapper module of a component. It begins with the names that the component module exports again,
one statement for each module they come from, and with the metadata of the parent. A module with an
element then makes a component of it; a module with an abstract class only exports its metadata, and
imports no more than these need.
-/

namespace ElementWrapper

namespace Wrapper

/-- The name of the factory of components. -/
def factory : Text := "createReactCustomElementType"

/-- The name that the checks are imported under. -/
def propTypes : Text := "PropTypes"

/-- The name of the component. -/
def component : Text := "Component"

/-- The name under which the element is exported. -/
def elementExport : Text := "CustomElement"

/-- The name under which the properties and events are exported. -/
def descriptorExport : Text := "descriptor"

/-- The name under which the checks are exported. -/
def checksExport : Text := "propTypes"

/-- The name of the properties and events of the parent. -/
def parentDescriptor : Text := "parentDescriptor"

/-- The name of the checks of the parent. -/
def parentChecks : Text := "parentPropTypes"

/-! ## Building blocks -/

/-- A key, quoted unless it is an identifier. -/
def key (name : Text) : Node := if Literal.isPlainName name then .identifier name else .string name

/-- An entry of an object. -/
def entry (key value : Node) (comments : List Comment) : Node :=
  .mk none comments (.property key value false)

/-- An object. -/
def object (entries : List Node) : Node := .of (.object entries)

/-- A call. -/
def call (callee : Node) (arguments : List Node) : Node := .of (.call callee arguments)

/-- An import of some names from a module. -/
def importOf (specifiers : List Node) (source : Text) : Node :=
  .of (.importDeclaration specifiers (.string source) false)

/-- The specifier of a default import. -/
def defaultSpecifier (name : Text) : Node := .of (.importDefault (.identifier name))

/-- The specifier of a named import. -/
def namedSpecifier (imported name : Text) : Node :=
  .of (.importSpecifier (.identifier name) (.identifier imported))

/-- A variable with a value. -/
def declare (kind name : Text) (value : Node) : Node :=
  .of (.variables kind [.of (.declarator (.identifier name) (some value))])

/-- An exported variable with a value. -/
def exported (name : Text) (value : Node) : Node :=
  .of (.exportNamed (some (declare "var" name value)) [] none false)

/-- An export of names of another module. -/
def exportFrom (names : List (Text × Text)) (source : Text) : Node :=
  let specifiers := names.map fun (exported, imported) =>
    Node.of (.exportSpecifier (.identifier imported) (.identifier exported))
  .of (.exportNamed none specifiers (some (.string source)) false)

/-- An object with the entries of the parent ahead of its own. -/
def merged (parent : Text) (own : Node) : Node :=
  call (.memberNamed "Object" "assign") [object [], .identifier parent, own]

/-! ## Properties and events -/

/-- The serializer that a property needs; an unknown type has none. -/
def serializer? (property : PropertyMetadata) : Except Failure (Option Text) :=
  match property.policy, property.type with
  | .flag false, _ | _, none | _, some [] => .ok none
  | _, some type =>
    if type = PropertyType.standard then .ok none
    else match PropertyType.serializer? type with
      | some serializer => .ok (some serializer)
      | none => .error (.complaint ("No serializer found for type: " ++ type) property.location)

/-- The description of a property that needs a serializer. -/
def describe (property : PropertyMetadata) (serializer : Option Text) : Node :=
  let attributeKey : Text := "attribute"
  let serialize := serializer.toList.map fun name =>
    entry (.identifier "serialize") (.identifier name) []
  match property.policy with
  | .flag false => object [entry (.identifier attributeKey) (.of (.boolean false)) []]
  | .named name => object (serialize ++ [entry (.identifier attributeKey) (.string name) []])
  | _ => object serialize

/-- The entries of the properties, and the serializers they need in the order of their first use. -/
def propertyEntries : (properties : Table PropertyMetadata) → (serializers : List Text) →
    Except Failure (List Node × List Text)
  | [], serializers => .ok ([], serializers)
  | (name, property) :: rest, serializers => do
    let serializer ← serializer? property
    let fresh := serializer.toList.filter (!serializers.contains ·)
    let (entries, serializers) ← propertyEntries rest (serializers ++ fresh)
    return (entry (key name) (describe property serializer) [] :: entries, serializers)

/-- The entries of the events. -/
def eventEntries (events : Table EventMetadata) : List Node :=
  events.map fun (name, event) =>
    entry (key (Event.propName name)) (object [entry (.identifier "event") event.name []]) []

/-- The check of a property. -/
def check (property : PropertyMetadata) : Except Failure Node :=
  let type := match property.type with
    | none | some [] => PropertyType.standard
    | some type => type
  match PropertyType.check? type with
  | some check => .ok (.memberNamed propTypes check)
  | none => .error (.complaint ("No React prop type found for type: " ++ type) property.location)

/-- The checks of the properties. -/
def propertyChecks (properties : Table PropertyMetadata) : Except Failure (List Node) :=
  properties.mapM fun (name, property) =>
    return entry (key name) (← check property) property.comments

/-- The checks of the handlers of events. -/
def eventChecks (events : Table EventMetadata) : List Node :=
  events.map fun (name, event) =>
    entry (key (Event.propName name)) (.memberNamed propTypes Event.check) event.comments

/-! ## The module -/

section

variable (config : WrapperConfig)

/-- The specifiers of serializers. -/
def serializerSpecifiers (serializers : List Text) : List Node :=
  serializers.map fun name => namedSpecifier name name

/-- The import of serializers alone. -/
def serializersImport (serializers : List Text) : Node :=
  importOf (serializerSpecifiers serializers) config.wrapperModule

/-- The import of the factory and of serializers. -/
def factoryImport (serializers : List Text) : Node :=
  importOf (defaultSpecifier factory :: serializerSpecifiers serializers) config.wrapperModule

/-- The import of the checks. -/
def checksImport : Node := importOf [defaultSpecifier propTypes] config.propTypesModule

/-- The two exports that every wrapper makes. -/
def metadataExports (descriptor checks : Node) : List Node :=
  [exported descriptorExport descriptor, exported checksExport checks]

/-- The wrapper of an abstract class. -/
def abstractBody (m : Metadata) (serializers : List Text) (descriptor checks : Node) : List Node :=
  (if serializers.isEmpty then [] else [serializersImport config serializers]) ++
    (if m.properties.isEmpty && m.events.isEmpty then [] else [checksImport config]) ++
    metadataExports descriptor checks

/-- The wrapper of an element with a name. -/
def elementBody (filename : Text) (name : Node) (serializers : List Text)
    (descriptor checks : Node) : List Node :=
  let element := Specifier.through config.elementPath config.start filename config.componentsRoot
    config.outputExtension
  (if config.upgradable then [exportFrom [(elementExport, ImportBinding.defaultName)] element]
    else []) ++
  [factoryImport config serializers, checksImport config] ++
  (config.settings.map fun s => importOf [defaultSpecifier s.name] s.source) ++
  (config.settings.map fun s => declare "var" s.binding (.memberNamed s.name s.field)) ++
  metadataExports descriptor checks ++
  [declare "const" component (call (.identifier factory) [name, .identifier descriptorExport]),
    .of (.expressionStatement (.of (.assignment (.memberNamed component checksExport)
      (.identifier checksExport) "="))),
    .of (.exportDefault (.identifier component))]

/-- What stands before the wrapper itself: names exported again and the metadata of the parent. -/
def preamble (m : Metadata) : List Node :=
  let relative (source : Text) := Specifier.relativeWithExtension source config.outputExtension
  (m.reexports.map fun (source, names) => exportFrom names (relative source)) ++
    match m.parentSource with
    | none | some [] => []
    | some source =>
      [importOf [namedSpecifier descriptorExport parentDescriptor] (relative source),
        importOf [namedSpecifier checksExport parentChecks] (relative source)]

/-- The statements of the wrapper before template literals are lowered. -/
def body (m : Metadata) (filename : Text) : Except Failure (List Node) := do
  let (entries, serializers) ← propertyEntries m.properties []
  let descriptor := object (entries ++ eventEntries m.events)
  let checks := object ((← propertyChecks m.properties) ++ eventChecks m.events)
  let hasParent := m.parentSource.any (!·.isEmpty)
  let descriptor := if hasParent then merged parentDescriptor descriptor else descriptor
  let checks := if hasParent then merged parentChecks checks else checks
  let own := match m.elementName, m.className with
    | some name, _ => elementBody config filename name serializers descriptor checks
    | none, some _ => abstractBody config m serializers descriptor checks
    | none, none => []
  return preamble config m ++ own

end

end Wrapper

/-- The wrapper module for the metadata of a module. An empty file name stands for the one that the
metadata belong to. -/
def synthesize (config : WrapperConfig) (m : Metadata) (filename : Text) : Except Failure Node := do
  let filename := if filename.isEmpty then m.filename else filename
  let program := Node.of (.program (← Wrapper.body config m filename))
  match config.templates with
  | .concat => (Lowering.lower program).mapError .escape
  | .preserve => return program

end ElementWrapper
