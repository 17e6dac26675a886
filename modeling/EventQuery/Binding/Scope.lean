import EventQuery.Binding.Error
import EventQuery.Schema
import EventQuery.Text.Suggestion

namespace EventQuery

/-!
# Scopes

A scope says what the names of an expression may mean: the streams of the row and their slots, the
stream that names without a stream belong to, the results of aggregations, and the schema.
-/

/-- The event type of a name, which must be declared. -/
def Schema.requireEventType (schema : Schema) (name : String) : Except BindingError Shape :=
  match schema.eventType? name with
  | some shape => .ok shape
  | none => .error (.unknownEventType name (Suggestion.hint name schema.eventTypeNames))

/-- A stream of a row under its name. -/
structure Stream where
  name : String
  eventType : String
  /-- The slot of the row that holds the event, or the sequence of events. -/
  slot : Nat
  /-- Whether the slot holds a sequence of events. -/
  indexed : Bool
  deriving DecidableEq, Repr

namespace Stream

/-- The type of the value at the slot of a stream. -/
def slotType (stream : Stream) : ValueType :=
  if stream.indexed then .array (.event stream.eventType) else .event stream.eventType

end Stream

/-- What the names of an expression may mean. -/
structure Scope where
  schema : Schema
  streams : List Stream
  /-- The slot of the stream that names without a stream belong to, when one is declared. -/
  defaultSlot : Option Nat
  /-- The slots and types of aggregation results, by the text of the call. -/
  aggregates : Fields (Nat × ValueType)

namespace Scope

/-- The scope without streams. -/
def ofSchema (schema : Schema) : Scope := ⟨schema, [], none, []⟩

/-- A further stream. -/
def addStream (scope : Scope) (stream : Stream) : Scope :=
  { scope with streams := scope.streams ++ [stream] }

/-- Names without a stream belong to the stream at a slot. -/
def withDefault (scope : Scope) (slot : Nat) : Scope := { scope with defaultSlot := some slot }

/-- The result of an aggregation call, known by the text of the call. -/
def addAggregate (scope : Scope) (call : String) (slot : Nat) (type : ValueType) : Scope :=
  { scope with aggregates := scope.aggregates.put call (slot, type) }

/-- The first stream of a name. -/
def findStream (scope : Scope) (name : String) : Option Stream :=
  scope.streams.find? fun stream => stream.name == name

/-- The first stream at a slot. -/
def atSlot (scope : Scope) (slot : Nat) : Option Stream :=
  scope.streams.find? fun stream => stream.slot == slot

/-- The stream that names without a stream belong to: the declared one, or the only one. -/
def defaultStream (scope : Scope) : Option Stream :=
  match scope.defaultSlot, scope.streams with
  | some slot, _ => scope.atSlot slot
  | none, [only] => some only
  | none, _ => none

/-- The slot and type of the result of an aggregation call. -/
def aggregate? (scope : Scope) (call : String) : Option (Nat × ValueType) :=
  scope.aggregates.find? call

/-- Put a slot into an ascending list without repetition. -/
def insertSlot (slot : Nat) : List Nat → List Nat
  | [] => [slot]
  | first :: rest =>
      if slot < first then slot :: first :: rest
      else if slot = first then first :: rest
      else first :: insertSlot slot rest

/-- The slots of all streams, ascending and without repetition. -/
def streamSlots (scope : Scope) : List Nat :=
  (scope.streams.map Stream.slot).foldr insertSlot []

/-- The shape of the events of a stream. -/
def shapeOf (scope : Scope) (stream : Stream) : Option Shape :=
  scope.schema.shape? stream.eventType

/-- Whether the events of a stream have a declared property. -/
def declares (scope : Scope) (property : String) (stream : Stream) : Bool :=
  ((scope.shapeOf stream).map fun shape => shape.declares property).getD false

/-- The names that the first segment of a chain may have meant. -/
def rootNames (scope : Scope) : List String :=
  scope.streams.map Stream.name ++
    ((scope.defaultStream.bind scope.shapeOf).map Shape.memberNames).getD []

end Scope

end EventQuery
