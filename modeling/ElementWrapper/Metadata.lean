import ElementWrapper.Module.Printer
import ElementWrapper.Table

/-!
What is known of a component module: its class, the name of its element, the properties and events
it declares, the module of its parent and the names it exports again. `Metadata.summary` is the view
of it that is shown to users.
-/

namespace ElementWrapper

/-- How a property relates to an attribute of its element. -/
inductive AttributePolicy where
  | unspecified
  /-- The property has an attribute, or has none. -/
  | flag (present : Bool)
  | named (name : Text)
  deriving DecidableEq, Repr

/-- A property that a class declares. -/
structure PropertyMetadata where
  type : Option Text := none
  policy : AttributePolicy := .unspecified
  comments : List Comment := []
  location : Option Location := none
  deriving DecidableEq

/-- An event that a class declares. Its name is a string or a template. -/
structure EventMetadata where
  name : Node
  comments : List Comment := []
  location : Option Location := none

/-- What is known of a component module. -/
structure Metadata where
  filename : Text
  className : Option Text := none
  classComments : List Comment := []
  elementName : Option Node := none
  properties : Table PropertyMetadata := []
  events : Table EventMetadata := []
  parentSource : Option Text := none
  /-- For each module the names under which its exports are exported again, with their own names. -/
  reexports : Table (Table Text) := []

/-- What is shown of the metadata of a module. -/
structure Summary where
  filename : Text
  className : Option Text
  elementName : Option Text
  properties : Table (Option Text × AttributePolicy)
  events : Table Text
  parentSource : Option Text
  reexports : Table (Table Text)

namespace Metadata

/-- The metadata with a module of the parent class, if there is one. -/
def setParentSource (m : Metadata) (source : Option Text) : Metadata :=
  match source with
  | none | some [] => m
  | some source => { m with parentSource := some source }

/-- The metadata with one more export of another module exported again. -/
def addExport (m : Metadata) (source exported imported : Text) : Metadata :=
  let names := (m.reexports.get? source).getD []
  { m with reexports := m.reexports.put source (Table.put exported imported names) }

/-- The metadata with a property. -/
def putProperty (m : Metadata) (name : Text) (property : PropertyMetadata) : Metadata :=
  { m with properties := m.properties.put name property }

/-- The metadata with an event. -/
def putEvent (m : Metadata) (name : Text) (event : EventMetadata) : Metadata :=
  { m with events := m.events.put name event }

/-- The view of the metadata for users. -/
def summary (m : Metadata) : Except Unprintable Summary := do
  let print (node : Node) : Except Unprintable Text := Layout.expression {} 0 node
  return {
    filename := m.filename
    className := m.className
    elementName := ← m.elementName.mapM print
    properties := m.properties.map fun (name, property) => (name, property.type, property.policy)
    events := ← m.events.mapM fun (name, event) => return (name, ← print event.name)
    parentSource := m.parentSource
    reexports := m.reexports }

end Metadata

end ElementWrapper
