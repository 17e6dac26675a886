namespace EventQuery

/-!
# Value types

The types that expressions are given before they are evaluated.  `any` and `unknown` stand for
values whose kind is known only when a row is at hand.
-/

/-- The static type of a value. -/
inductive ValueType where
  | int
  | float
  | bool
  | str
  | timestamp
  | duration
  | null
  | array (element : ValueType)
  | map (key : ValueType) (entry : ValueType)
  | event (name : String)
  | anyEvent
  | object (name : String)
  | any
  | unknown
  deriving DecidableEq, Repr, Inhabited

namespace ValueType

/-- Integers and floating-point numbers. -/
def isNumeric : ValueType → Bool
  | int | float => true
  | _ => false

/-- Events of a named type or of any type. -/
def isEvent : ValueType → Bool
  | event _ | anyEvent => true
  | _ => false

/-- Types that say nothing about the value. -/
def isDynamic : ValueType → Bool
  | any | unknown => true
  | _ => false

/-- The type of the elements of a collection. -/
def element? : ValueType → Option ValueType
  | array element => some element
  | _ => none

/-- The name of the shape that declares the members of an event or object. -/
def shapeName? : ValueType → Option String
  | event name | object name => some name
  | _ => none

/--
Whether a value of the second type may stand where the first is declared.  A dynamic type takes
every value, a null or unknown value goes everywhere, an integer widens to a floating-point number,
an event of a named type is an event, and collections are compared by their parts.
-/
def accepts : ValueType → ValueType → Bool
  | .any, _ | .unknown, _ => true
  | _, .unknown | _, .null => true
  | .float, .int => true
  | .anyEvent, .event _ => true
  | .array expected, .array found => expected.accepts found
  | .map expectedKey expectedEntry, .map foundKey foundEntry =>
      expectedKey.accepts foundKey && expectedEntry.accepts foundEntry
  | expected, found => expected == found

/-- The type of a sum of two numbers; a dynamic operand leaves it unknown. -/
def numericJoin? : ValueType → ValueType → Option ValueType
  | .int, .int => some .int
  | .int, .float | .float, .int | .float, .float => some .float
  | left, right => if left.isDynamic || right.isDynamic then some .unknown else none

/-- The written form of a type. -/
def text : ValueType → String
  | int => "int"
  | float => "float"
  | bool => "bool"
  | str => "str"
  | timestamp => "timestamp"
  | duration => "duration"
  | null => "null"
  | array element => "[" ++ element.text ++ "]"
  | map key entry => "\x7b" ++ key.text ++ ": " ++ entry.text ++ "\x7d"
  | event name => "event " ++ name
  | anyEvent => "event"
  | object name => name
  | any => "any"
  | unknown => "?"

end ValueType

end EventQuery
