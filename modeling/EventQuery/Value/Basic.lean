import EventQuery.Fields
import EventQuery.Number.Binary64
import EventQuery.ValueType

namespace EventQuery

/-!
# Values

The values that rows hold and expressions yield.  Events and objects are entities: they are equal
only when they are the same entity, whatever their fields say.
-/

/--
The place in an evaluation at which an entity may be made.  The evaluation of a whole expression has
an occasion of its own and gives each part a longer one, so that no two calls share an occasion.
-/
abbrev Occasion := List Nat

/-- What makes an entity the one it is. -/
inductive Identity where
  /-- An entity that came from outside, by number. -/
  | given (number : Nat)
  /-- An entity that a method made during an evaluation. -/
  | made (occasion : Occasion)
  deriving DecidableEq, Repr, Inhabited

/-- An event or an object: an identity, the name of its event type or class, and its fields. -/
structure Entity (Content : Type) where
  identity : Identity
  kind : String
  fields : List (String × Content)
  deriving Repr

/-- A value at run time. -/
inductive Value where
  | null
  | bool (truth : Bool)
  | int (number : Int64)
  | float (number : Binary64)
  | str (text : String)
  /-- A point of time, in nanoseconds from the first moment of 1970. -/
  | timestamp (nanos : Int64)
  /-- A length of time in nanoseconds. -/
  | duration (nanos : UInt64)
  | array (items : List Value)
  | map (entries : List (String × Value))
  | event (entity : Entity Value)
  | object (entity : Entity Value)
  deriving Repr, Inhabited

/-- An event: something that happened, of a named event type. -/
abbrev Event := Entity Value

/-- One row of an evaluation: the value at each slot. -/
abbrev Row := List Value

namespace Row

/-- The value at a slot; a row has null at every slot beyond its end. -/
def get (row : Row) (slot : Nat) : Value := row.getD slot .null

end Row

namespace Value

/-- The value at hand, or null. -/
def ofOption (value? : Option Value) : Value := value?.getD .null

/-- The word for the kind of a value. -/
def kindName : Value → String
  | null => "null"
  | bool _ => "bool"
  | int _ => "int"
  | float _ => "float"
  | str _ => "str"
  | timestamp _ => "timestamp"
  | duration _ => "duration"
  | array _ => "array"
  | map _ => "map"
  | event _ => "event"
  | object _ => "object"

/-- The type of a value.  A collection has the type of its first element. -/
def type : Value → ValueType
  | null => .null
  | bool _ => .bool
  | int _ => .int
  | float _ => .float
  | str _ => .str
  | timestamp _ => .timestamp
  | duration _ => .duration
  | array [] => .array .unknown
  | array (first :: _) => .array first.type
  | map _ => .map .str .any
  | event entity => .event entity.kind
  | object entity => .object entity.kind

/-- Whether a value is null. -/
def isNull : Value → Bool
  | null => true
  | _ => false

/-- The integer in a number, toward zero and within the machine range. -/
def asInt? : Value → Option Int64
  | int number => some number
  | float number => some number.truncate
  | _ => none

/-- A number as a floating-point number. -/
def asFloat? : Value → Option Binary64
  | float number => some number
  | int number => some (Binary64.ofInt number.toInt)
  | _ => none

/-- The text of a string. -/
def asStr? : Value → Option String
  | str text => some text
  | _ => none

/-- The truth of a Boolean. -/
def asBool? : Value → Option Bool
  | bool truth => some truth
  | _ => none

/-- The elements of a collection. -/
def asArray? : Value → Option (List Value)
  | array items => some items
  | _ => none

/-- The event in an event value. -/
def asEvent? : Value → Option Event
  | event entity => some entity
  | _ => none

/-- The entry of a map. -/
def entry? : Value → String → Option Value
  | map entries, key => Table.find? entries key
  | _, _ => none

/-- The element of a collection at a position. -/
def item? : Value → Nat → Option Value
  | array items, position => items[position]?
  | _, _ => none

mutual

/--
Equality of values.  Kinds never mix, numbers compare as numbers, collections element by element,
maps whatever the order of their entries, and entities by identity.
-/
def equals : Value → Value → Bool
  | .null, .null => true
  | .bool left, .bool right => left == right
  | .int left, .int right => left == right
  | .float left, .float right => left.equals right
  | .str left, .str right => left == right
  | .timestamp left, .timestamp right => left == right
  | .duration left, .duration right => left == right
  | .array left, .array right => itemsEqual left right
  | .map left, .map right => left.length == right.length && entriesIn left right
  | .event left, .event right => left.identity == right.identity
  | .object left, .object right => left.identity == right.identity
  | _, _ => false

/-- Whether two collections have equal elements at equal positions. -/
def itemsEqual : List Value → List Value → Bool
  | [], [] => true
  | left :: lefts, right :: rights => equals left right && itemsEqual lefts rights
  | _, _ => false

/-- Whether every entry of the first map has an equal one in the second. -/
def entriesIn : List (String × Value) → Fields Value → Bool
  | [], _ => true
  | (key, value) :: rest, others =>
      (match others.find? key with
        | some other => equals value other
        | none => false) && entriesIn rest others

end

/-- Equality of values with numbers of both kinds on one line. -/
def valuesEqual : Value → Value → Bool
  | int left, float right => (Binary64.ofInt left.toInt).equals right
  | float left, int right => left.equals (Binary64.ofInt right.toInt)
  | left, right => left.equals right

/--
The order of values of one kind; numbers of both kinds stand on one line.  Other pairs, and pairs
with a NaN, have no order.
-/
def compare? : Value → Value → Option Ordering
  | int left, int right => some (compare left.toInt right.toInt)
  | int left, float right => (Binary64.ofInt left.toInt).compare? right
  | float left, int right => left.compare? (Binary64.ofInt right.toInt)
  | float left, float right => left.compare? right
  | str left, str right => some (compare left right)
  | timestamp left, timestamp right => some (compare left.toInt right.toInt)
  | duration left, duration right => some (compare left.toNat right.toNat)
  | bool left, bool right => some (compare left right)
  | _, _ => none

end Value

namespace Entity

/-- The value of a field, or null. -/
def read (entity : Entity Value) (field : String) : Value :=
  Value.ofOption (Table.find? entity.fields field)

end Entity

end EventQuery
