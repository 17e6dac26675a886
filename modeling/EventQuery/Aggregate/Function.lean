import EventQuery.Aggregate.Error
import EventQuery.Aggregate.State
import EventQuery.Binding.Typing
import EventQuery.Text.Suggestion

namespace EventQuery

/-!
# Aggregation functions

A call of an aggregation function is checked once, when its statement is set up, and becomes a
handler: the key of its state, the way to create the state for a group, the way to read the result
from it, and the type of the result.  Handlers with one key share one state in each group.
-/

/-- The number of a statement. -/
abbrev StatementId := Nat

/-- What tells the states of one group apart. -/
inductive StateKey where
  /-- A state of one call alone, by the position of the call. -/
  | own (position : Nat) (name : String)
  /-- A state that all calls of some functions share. -/
  | shared (name : String)
  deriving DecidableEq, Repr

namespace StateKey

/-- The name that a key was given, which does not tell it from other keys. -/
def name : StateKey → String
  | own _ name => name
  | shared name => name

end StateKey

/-- A call of an aggregation function with bound arguments. -/
structure AggregateCall where
  function : String
  arguments : List Node
  /-- Whether the only argument is the wildcard. -/
  wildcard : Bool
  /-- Whether rows may leave the aggregation again. -/
  windowed : Bool
  /-- The position of the call among those of its statement. -/
  position : Nat

namespace AggregateCall

/-- The call has a problem. -/
def invalid {α : Type} (call : AggregateCall) (problem : AggregateProblem) :
    Except ActivationError α :=
  .error (.invalidAggregation call.function problem)

/-- The only argument of the call, which must not be the wildcard. -/
def onlyArgument (call : AggregateCall) : Except ActivationError Node :=
  if call.wildcard then call.invalid .wildcardArgument
  else
    match call.arguments with
    | [argument] => .ok argument
    | arguments => call.invalid (.argumentCount 1 arguments.length)

/-- The two arguments of the call, which must not be the wildcard. -/
def bothArguments (call : AggregateCall) : Except ActivationError (Node × Node) :=
  if call.wildcard then call.invalid .wildcardArgument
  else
    match call.arguments with
    | [first, second] => .ok (first, second)
    | arguments => call.invalid (.argumentCount 2 arguments.length)

end AggregateCall

/-- A call of an aggregation function that has been checked. -/
structure AggregateHandler where
  function : String
  key : StateKey
  /-- A new state for a statement and group, or a report of failure. -/
  create : Occasion → StatementId → GroupKey → Except String AggregateState
  /-- The result in a state. -/
  read : AggregateState → Value
  returns : ValueType

/-- A supplier of aggregation functions, by their names in lower case. -/
structure AggregateSupplier where
  names : List String
  handle : AggregateCall → Except ActivationError AggregateHandler

namespace AggregateKind

/-- The function of a name, whatever the case of its ASCII letters. -/
def ofName? (name : String) : Option AggregateKind :=
  all.find? fun kind => kind.name == name.toLower

/-- The type of the result for an argument of a type, if the function takes such arguments. -/
def resultType (kind : AggregateKind) (argument : ValueType) : Except AggregateProblem ValueType :=
  match kind with
  | count => .ok .int
  | sum =>
      if argument = .int then .ok .int
      else if argument.isDynamic then .ok .unknown
      else if argument.isNumeric then .ok .float
      else .error (.notNumeric argument)
  | avg | stddev =>
      if argument.isNumeric || argument.isDynamic then .ok .float
      else .error (.notNumeric argument)
  | min | max =>
      if argument.isNumeric || argument.isDynamic || argument.isOrdered then .ok argument
      else .error (.notComparable argument)
  | first | last => .ok argument

/-- The handler of a function over an argument, or over whole rows. -/
def handler (kind : AggregateKind) (call : AggregateCall) (argument : Option Node)
    (returns : ValueType) : AggregateHandler where
  function := call.function
  key := .own call.position call.function
  create := fun _ _ _ => .ok (.accumulator argument (.empty call.windowed kind))
  read := fun state =>
    match state with
    | .accumulator _ held => held.value
    | _ => .null
  returns := returns

/-- Check a call of a function over one argument; only rows can be counted without one. -/
def handle (kind : AggregateKind) (call : AggregateCall) :
    Except ActivationError AggregateHandler := do
  if kind = .count ∧ call.wildcard ∧ call.arguments.isEmpty then
    return kind.handler call none .int
  let argument ← call.onlyArgument
  match kind.resultType argument.type with
  | .ok returns => return kind.handler call (some argument) returns
  | .error problem => call.invalid problem

end AggregateKind

namespace AggregateSupplier

/-- The functions over one argument. -/
def accumulators : AggregateSupplier where
  names := AggregateKind.all.map AggregateKind.name
  handle := fun call =>
    match AggregateKind.ofName? call.function with
    | some kind => kind.handle call
    | none => .error (.unknownAggregation call.function "")

/-- The name of the function that tells whether there is a cycle. -/
def cycleDetected : String := "cycledetected"

/-- The name of the function that lists the vertices on cycles. -/
def cycleOutput : String := "cycleoutput"

/-- Whether the graph in a state has a cycle. -/
def readDetected : AggregateState → Value
  | .edges _ _ graph => .bool graph.hasCycle
  | _ => .null

/-- The vertices on cycles of the graph in a state, or null without any. -/
def readOutput : AggregateState → Value
  | .edges _ _ graph =>
      match graph.cycleVertices with
      | [] => .null
      | vertices => .array vertices
  | _ => .null

/-- Check a call of a function over the two ends of an edge. -/
def handleCycle (call : AggregateCall) : Except ActivationError AggregateHandler := do
  let (source, target) ← call.bothArguments
  if !(source.type.accepts target.type || target.type.accepts source.type) then
    call.invalid (.verticesDiffer source.type target.type)
  let detects := call.function.toLower == cycleDetected
  return {
    function := call.function
    key := .shared "cycle"
    create := fun _ _ _ => .ok (.edges source target .empty)
    read := if detects then readDetected else readOutput
    returns := if detects then .bool else .array source.type }

/-- The functions over the edges of a graph, which share one graph in each group. -/
def cycles : AggregateSupplier where
  names := [cycleDetected, cycleOutput]
  handle := handleCycle

end AggregateSupplier

/-- The aggregation functions that statements may call, by name in lower case. -/
structure AggregateCatalog where
  suppliers : Fields AggregateSupplier

namespace AggregateCatalog

/-- The catalog without functions. -/
def empty : AggregateCatalog := ⟨[]⟩

/-- Add all functions of a supplier; a function of the same name is replaced. -/
def add (catalog : AggregateCatalog) (supplier : AggregateSupplier) : AggregateCatalog :=
  ⟨supplier.names.foldl (fun suppliers name => suppliers.put name.toLower supplier)
    catalog.suppliers⟩

/-- The functions over one argument and those over edges. -/
def standard : AggregateCatalog := (empty.add .accumulators).add .cycles

/-- The supplier of a function, whatever the case of the ASCII letters of its name. -/
def find? (catalog : AggregateCatalog) (name : String) : Option AggregateSupplier :=
  catalog.suppliers.find? name.toLower

/-- Whether a name is that of an aggregation function. -/
def isAggregate (catalog : AggregateCatalog) (name : String) : Bool := (catalog.find? name).isSome

/-- The names of all functions in order. -/
def names (catalog : AggregateCatalog) : List String := catalog.suppliers.names

/-- Check a call by the supplier of its function. -/
def handle (catalog : AggregateCatalog) (call : AggregateCall) :
    Except ActivationError AggregateHandler :=
  match catalog.find? call.function with
  | some supplier => supplier.handle call
  | none =>
      .error (.unknownAggregation call.function (Suggestion.hint call.function catalog.names))

end AggregateCatalog

end EventQuery
