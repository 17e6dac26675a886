import EventQuery.Value.Basic

namespace EventQuery

/-!
# Schemas

A schema declares what can be named: the properties and methods of event types and classes, and the
functions and constants of namespaces.  Methods and functions carry what they do; a call is given
the occasion on which it happens, so that an entity it makes is like no other.
-/

/-- A declared property.  A class may say how the property is read from one of its objects. -/
structure Property where
  type : ValueType
  getter : Option (Value → Option Value)

/-- A declared method of an event type or class. -/
structure Method where
  name : String
  parameters : List ValueType
  returns : ValueType
  invoke : Occasion → Value → List Value → Except String Value

/-- A declared function of a namespace. -/
structure Function where
  name : String
  parameters : List ValueType
  returns : ValueType
  invoke : Occasion → List Value → Except String Value

/-- A declared event type or class. -/
structure Shape where
  name : String
  isEvent : Bool
  properties : Fields Property
  methods : List Method

namespace Shape

/-- The property of a name. -/
def property? (shape : Shape) (name : String) : Option Property := shape.properties.find? name

/-- Whether a property of a name is declared. -/
def declares (shape : Shape) (name : String) : Bool := (shape.property? name).isSome

/-- The methods of a name, in order of declaration. -/
def methodsNamed (shape : Shape) (name : String) : List Method :=
  shape.methods.filter fun method => method.name == name

/-- The names of all properties and then of all methods. -/
def memberNames (shape : Shape) : List String :=
  shape.properties.names ++ shape.methods.map Method.name

end Shape

/-- A declared namespace of functions and constants. -/
structure Namespace where
  name : String
  functions : List Function
  constants : Fields Value

namespace Namespace

/-- The functions of a name, in order of declaration. -/
def functionsNamed (space : Namespace) (name : String) : List Function :=
  space.functions.filter fun function => function.name == name

/-- The constant of a name. -/
def constant? (space : Namespace) (name : String) : Option Value := space.constants.find? name

/-- The names of all functions and then of all constants. -/
def memberNames (space : Namespace) : List String :=
  space.functions.map Function.name ++ space.constants.names

end Namespace

/-- All declarations under their names; a later declaration of a name replaces an earlier one. -/
structure Schema where
  shapes : Fields Shape
  namespaces : Fields Namespace

namespace Schema

/-- The schema that declares nothing. -/
def empty : Schema := ⟨[], []⟩

/-- Declare an event type or class. -/
def addShape (schema : Schema) (shape : Shape) : Schema :=
  { schema with shapes := schema.shapes.put shape.name shape }

/-- Declare a namespace. -/
def addNamespace (schema : Schema) (space : Namespace) : Schema :=
  { schema with namespaces := schema.namespaces.put space.name space }

/-- The event type or class of a name. -/
def shape? (schema : Schema) (name : String) : Option Shape := schema.shapes.find? name

/-- The event type of a name. -/
def eventType? (schema : Schema) (name : String) : Option Shape :=
  (schema.shape? name).filter Shape.isEvent

/-- The namespace of a name. -/
def namespace? (schema : Schema) (name : String) : Option Namespace :=
  schema.namespaces.find? name

/-- The names of all event types. -/
def eventTypeNames (schema : Schema) : List String :=
  (schema.shapes.map Prod.snd).filterMap fun shape => if shape.isEvent then some shape.name else none

end Schema

end EventQuery
