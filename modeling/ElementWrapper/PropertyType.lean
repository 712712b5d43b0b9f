import ElementWrapper.Text.Basic

/-!
The fixed vocabulary of wrappers: which serializer and which check belong to the type of a property,
and how the member that holds the name of an event gives its name to a handler.
-/

namespace ElementWrapper

namespace PropertyType

/-- The type of a property that names none. -/
def standard : Text := "String"

/-- The types that have a serializer, with its name. A `String` needs none. -/
def serializers : List (Text × Text) :=
  [("Boolean", "booleanSerializer"), ("Number", "numberSerializer"), ("Object", "objectSerializer")]

/-- The types that can be checked, with the name of the check. -/
def checks : List (Text × Text) :=
  [("String", "string"), ("Boolean", "bool"), ("Number", "number"), ("Object", "object")]

/-- The name of the serializer of a type. -/
def serializer? (type : Text) : Option Text := serializers.lookup type

/-- The name of the check of a type. -/
def check? (type : Text) : Option Text := checks.lookup type

end PropertyType

namespace Event

/-- The word that the name of a member begins with if it holds the name of an event. -/
def memberStart : Text := "event"

/-- The word that the name of a handler begins with. -/
def handlerStart : Text := "on"

/-- The name of the check of a handler. -/
def check : Text := "func"

/-- Whether a member holds the name of an event. -/
def isMember (name : Text) : Bool := memberStart.isPrefixOf name

/-- The name of the handler for the event of a member; any other name is kept. -/
def propName (name : Text) : Text :=
  match Text.dropStart? memberStart name with
  | some rest => handlerStart ++ rest
  | none => name

end Event

end ElementWrapper
