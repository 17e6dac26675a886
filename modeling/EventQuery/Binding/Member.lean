import EventQuery.Binding.Error
import EventQuery.Binding.Node
import EventQuery.Binding.Overload
import EventQuery.Binding.Scope
import EventQuery.Expr
import EventQuery.Text.Suggestion

namespace EventQuery

/-!
# Binding of members

A segment of a chain names a property or a method of the expression before it.  A property is one
that the type declares.  A method is a built-in of the type, or else the most specific declared
method of that name.  The wildcard as an argument passes an event, or the whole row where a
collection of events is expected.
-/

/-- An argument whose type is known before the method is chosen. -/
inductive BoundArgument where
  | node (node : Node)
  | wildcard

namespace BoundArgument

/-- What the argument is for the choice of a method. -/
def shape : BoundArgument → ArgumentShape
  | node bound => .typed bound.type
  | wildcard => .wildcard

end BoundArgument

/-- A segment together with the outcome of binding its arguments. -/
structure BoundSegment where
  segment : Segment Expr
  arguments : Except BindingError (List BoundArgument)

namespace BoundSegment

/-- The written form of a segment. -/
def text (bound : BoundSegment) : String := Expr.segmentText bound.segment

end BoundSegment

namespace Scope

/--
The wildcard where a type is expected.  It is the whole row for a collection of events; otherwise it
is the event that the chain starts from, or that of the default stream, or of the first stream.
-/
def bindWildcard (scope : Scope) (parameter : ValueType) (origin : Option Nat) :
    Except BindingError Node :=
  if (parameter.element?.map ValueType.isEvent).getD false then .ok (.row scope.streamSlots)
  else
    match (origin.bind scope.atSlot) <|> scope.defaultStream <|> scope.streams.head? with
    | some stream => .ok (.slot stream.slot stream.slotType)
    | none => .error (.typeMismatch "'*'" "a stream event" "no stream")

/-- An argument in its final form, for the parameter that it is passed to. -/
def finishArgument (scope : Scope) (origin : Option Nat) (parameter : ValueType) :
    BoundArgument → Except BindingError Node
  | .node node => .ok node
  | .wildcard => scope.bindWildcard parameter origin

/-- The arguments in their final form. -/
def finishArguments (scope : Scope) (origin : Option Nat) :
    List ValueType → List BoundArgument → Except BindingError (List Node)
  | parameter :: parameters, argument :: arguments => do
      let node ← scope.finishArgument origin parameter argument
      let nodes ← scope.finishArguments origin parameters arguments
      return node :: nodes
  | _, _ => .ok []

end Scope

namespace Node

/-- Pick the element that a segment asks for, if it asks for one. -/
def pick (node : Node) (index : Option Nat) (context : String) : Except BindingError Node :=
  match index with
  | none => .ok node
  | some position =>
      match node.type with
      | .array element => .ok (.item node position element)
      | .any | .unknown => .ok (.item node position .unknown)
      | other => .error (.typeMismatch ("index on '" ++ context ++ "'") "a collection" other.text)

end Node

namespace BindingError

/-- A type does not have a member; a similar name may be offered. -/
def missing (member : String) (arity : Nat) (type : ValueType) (candidates : List String) :
    BindingError :=
  .noSuchMember member arity (type.shapeName?.getD type.text) (Suggestion.hint member candidates)

/-- The only method of the right length refuses an argument. -/
def argumentMismatch (owner member : String) (parameters : List ValueType)
    (arguments : List ArgumentShape) (position : Nat) : BindingError :=
  .typeMismatch
    ("argument " ++ toString (position + 1) ++ " of '" ++ owner ++ "." ++ member ++ "'")
    (parameters.getD position .unknown).text
    ((arguments.getD position .wildcard).text)

/-- Several methods fit a call equally well. -/
def tie (owner member : String) (arity : Nat) (tied : List (List ValueType)) : BindingError :=
  .ambiguousOverload member arity owner
    (tied.map fun parameters => (MethodSignature.mk owner member parameters).text)

end BindingError

namespace Scope

/--
The declared method or function that a call is bound to, with its arguments in final form.  The
hint of the error for a wrong number of arguments is drawn from the given names.
-/
def chooseOverload {Callee : Type} (scope : Scope) (owner member : String)
    (candidates : List Callee) (parametersOf : Callee → List ValueType) (names : List String)
    (origin : Option Nat) (arguments : List BoundArgument) :
    Except BindingError (Callee × List Node) := do
  let parameters := candidates.map parametersOf
  let shapes := arguments.map BoundArgument.shape
  match Overload.select parameters shapes with
  | .unique position =>
      match candidates[position]? with
      | some callee =>
          let nodes ← scope.finishArguments origin (parametersOf callee) arguments
          return (callee, nodes)
      | none => throw (.noSuchMember member shapes.length owner "")
  | .noArity =>
      throw (.noSuchMember member shapes.length owner (Suggestion.hint member names))
  | .mismatch candidate argument =>
      throw (.argumentMismatch owner member (parameters.getD candidate []) shapes argument)
  | .ambiguous tied =>
      throw (.tie owner member shapes.length (tied.map fun position => parameters.getD position []))

/-- Each argument of a built-in method must be accepted by its parameter. -/
def finishBuiltinArguments (scope : Scope) (origin : Option Nat) (name : String) :
    Nat → List ValueType → List BoundArgument → Except BindingError (List Node)
  | position, parameter :: parameters, argument :: arguments => do
      let node ← scope.finishArgument origin parameter argument
      if !parameter.accepts node.type then
        throw (.mismatch ("argument " ++ toString position ++ " of '" ++ name ++ "'")
          parameter node.type)
      let nodes ← scope.finishBuiltinArguments origin name (position + 1) parameters arguments
      return node :: nodes
  | _, _, _ => .ok []

/-- A call of a built-in method. -/
def bindBuiltin (scope : Scope) (receiver : Node) (found : BuiltinSignature)
    (bound : BoundSegment) (arguments : List BoundArgument) (origin : Option Nat)
    (context : String) : Except BindingError Node := do
  let element := receiver.type.element?.getD .unknown
  if found.method.needsNumbers && !(element.isNumeric || element.isDynamic) then
    throw (.mismatch ("'" ++ context ++ "." ++ bound.text ++ "'") (.array .float) receiver.type)
  let nodes ← scope.finishBuiltinArguments origin bound.segment.name 1 found.parameters arguments
  return .builtin receiver found.method nodes found.returns

/-- The declared shape of an event or object type, for the member that is looked for. -/
def requireShape (scope : Scope) (name : String) (type : ValueType) (member : String)
    (arity : Nat) : Except BindingError Shape :=
  match scope.schema.shape? name with
  | some shape => .ok shape
  | none => .error (.missing member arity type [])

/-- A call of a method on the result of an expression. -/
def bindMethod (scope : Scope) (receiver : Node) (bound : BoundSegment) (origin : Option Nat)
    (context : String) : Except BindingError Node := do
  let name := bound.segment.name
  let arguments ← bound.arguments
  match Builtin.lookup receiver.type name arguments.length with
  | some found => scope.bindBuiltin receiver found bound arguments origin context
  | none =>
      match receiver.type.shapeName? with
      | none => throw (.missing name arguments.length receiver.type
          (Builtin.namesFor receiver.type))
      | some shapeName =>
          let shape ← scope.requireShape shapeName receiver.type name arguments.length
          let names := shape.memberNames ++ Builtin.namesFor receiver.type
          let (method, nodes) ← scope.chooseOverload shape.name name (shape.methodsNamed name)
            Method.parameters names origin arguments
          let signature : MethodSignature := ⟨shape.name, method.name, method.parameters⟩
          return .method receiver ⟨signature, method.invoke⟩ nodes method.returns

/-- A declared property of an event or object. -/
def bindShapeProperty (scope : Scope) (receiver : Node) (shapeName name : String) :
    Except BindingError Node := do
  let shape ← scope.requireShape shapeName receiver.type name 0
  match shape.property? name with
  | none => throw (.missing name 0 receiver.type shape.memberNames)
  | some property =>
      match receiver, receiver.type with
      | .slot index _, .event _ => return .access index name property.type
      | _, _ =>
          return .read receiver name (property.getter.map fun read => ⟨shapeName, read⟩)
            property.type

/-- A property of the result of an expression. -/
def bindProperty (scope : Scope) (receiver : Node) (name : String) (context : String) :
    Except BindingError Node :=
  match receiver.type with
  | .event shapeName | .object shapeName => scope.bindShapeProperty receiver shapeName name
  | .map _ entry => .ok (.read receiver name none entry)
  | .anyEvent | .any | .unknown => .ok (.read receiver name none .unknown)
  | .array element =>
      if element.isEvent then .error (.ambiguousIndexedProperty context name)
      else .error (.missing name 0 receiver.type [])
  | other => .error (.missing name 0 other [])

/-- One segment of a chain after the expression before it, whose text is the context. -/
def bindSegment (scope : Scope) (receiver : Node) (bound : BoundSegment) (origin : Option Nat)
    (context : String) : Except BindingError Node := do
  let node ←
    if bound.segment.isCall then scope.bindMethod receiver bound origin context
    else scope.bindProperty receiver bound.segment.name context
  node.pick bound.segment.index? context

end Scope

end EventQuery
