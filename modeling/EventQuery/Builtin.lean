import EventQuery.Fault
import EventQuery.Number.Word
import EventQuery.Time.Calendar
import EventQuery.Value.Basic

namespace EventQuery

/-!
# Built-in methods

Points of time answer calendar methods and collections answer enumeration methods, without being
declared.  A built-in is found by the type of its receiver, its name and its number of arguments.
-/

/-- Methods of a point of time. -/
inductive CalendarMethod where
  | getYear
  | getMonthOfYear
  | getDayOfMonth
  | getHourOfDay
  | getMinuteOfHour
  | getDayOfWeek
  | toMillisec
  | plus
  | minus
  deriving DecidableEq, Repr

namespace CalendarMethod

/-- Every calendar method. -/
def all : List CalendarMethod :=
  [getYear, getMonthOfYear, getDayOfMonth, getHourOfDay, getMinuteOfHour, getDayOfWeek,
    toMillisec, plus, minus]

/-- The name that a chain calls the method by. -/
def name : CalendarMethod → String
  | getYear => "getYear"
  | getMonthOfYear => "getMonthOfYear"
  | getDayOfMonth => "getDayOfMonth"
  | getHourOfDay => "getHourOfDay"
  | getMinuteOfHour => "getMinuteOfHour"
  | getDayOfWeek => "getDayOfWeek"
  | toMillisec => "toMillisec"
  | plus => "plus"
  | minus => "minus"

/-- The types of the parameters. -/
def parameters : CalendarMethod → List ValueType
  | plus | minus => [.duration]
  | _ => []

/-- The type of the result. -/
def returns : CalendarMethod → ValueType
  | plus | minus => .timestamp
  | _ => .int

/--
The point of time at some distance.  A distance is read as a signed number of nanoseconds, and a
result that no timestamp can hold is replaced by the first moment of 1970.
-/
def shifted (nanos : Int64) (distance : Int) : Value :=
  .timestamp ((Word.checked (nanos.toInt + distance)).getD 0)

/-- A shift by the first argument, in the direction of the sign; a null distance gives null. -/
def shift (method : CalendarMethod) (sign : Int) (nanos : Int64) (arguments : List Value) :
    Except Fault Value :=
  match arguments.head? with
  | some (.duration distance) => .ok (shifted nanos (sign * distance.toInt64.toInt))
  | some .null | none => .ok .null
  | some other => .error (.invalidOperand method.name (.notDuration other.kindName))

/-- The result of a calendar method on a point of time. -/
def apply (method : CalendarMethod) (nanos : Int64) (arguments : List Value) :
    Except Fault Value :=
  let time := CalendarTime.ofNanos nanos.toInt
  match method with
  | getYear => .ok (.int (Int64.ofInt time.year))
  | getMonthOfYear => .ok (.int (Int64.ofNat time.month))
  | getDayOfMonth => .ok (.int (Int64.ofNat time.day))
  | getHourOfDay => .ok (.int (Int64.ofNat time.hour))
  | getMinuteOfHour => .ok (.int (Int64.ofNat time.minute))
  | getDayOfWeek => .ok (.int (Int64.ofNat time.weekday))
  | toMillisec => .ok (.int (Int64.ofInt (nanos.toInt.fdiv 1000000)))
  | plus => shift method 1 nanos arguments
  | minus => shift method (-1) nanos arguments

end CalendarMethod

/-- Methods of a collection. -/
inductive EnumerationMethod where
  | countOf
  | firstOf
  | lastOf
  | take
  | takeLast
  | distinctOf
  | reverse
  | sumOf
  | average
  | minOf
  | maxOf
  deriving DecidableEq, Repr

namespace EnumerationMethod

/-- Every enumeration method. -/
def all : List EnumerationMethod :=
  [countOf, firstOf, lastOf, take, takeLast, distinctOf, reverse, sumOf, average, minOf, maxOf]

/-- The name that a chain calls the method by. -/
def name : EnumerationMethod → String
  | countOf => "countOf"
  | firstOf => "firstOf"
  | lastOf => "lastOf"
  | take => "take"
  | takeLast => "takeLast"
  | distinctOf => "distinctOf"
  | reverse => "reverse"
  | sumOf => "sumOf"
  | average => "average"
  | minOf => "minOf"
  | maxOf => "maxOf"

/-- The types of the parameters. -/
def parameters : EnumerationMethod → List ValueType
  | take | takeLast => [.int]
  | _ => []

/-- The type of the result for elements of a type. -/
def returns (method : EnumerationMethod) (element : ValueType) : ValueType :=
  match method with
  | countOf => .int
  | average => .float
  | firstOf | lastOf => element
  | take | takeLast | distinctOf | reverse => .array element
  | sumOf | minOf | maxOf => if element.isNumeric || element.isDynamic then element else .unknown

/-- Whether the elements must be numbers. -/
def needsNumbers : EnumerationMethod → Bool
  | sumOf | average | minOf | maxOf => true
  | _ => false

/-- The number of elements asked for by the first argument; anything but a number asks for none. -/
def countArgument (arguments : List Value) : Nat :=
  match arguments.head?.bind Value.asInt? with
  | some count => count.toInt.toNat
  | none => 0

/-- The elements without those equal to an earlier one. -/
def distinct (items : List Value) : List Value :=
  items.foldl (fun kept item => if kept.any fun earlier => earlier.equals item then kept
    else kept ++ [item]) []

/-- The sum of numbers, from the left. -/
def floatSum (numbers : List Binary64) : Binary64 := numbers.foldl (· + ·) .negativeZero

/-- Whether an element is an integer or null. -/
def isWhole : Value → Bool
  | .int _ | .null => true
  | _ => false

/--
The sum of the numbers among the elements.  Integers alone have an integer sum, which wraps; with
anything else among the elements the sum is a floating-point number.  Without a number it is null.
-/
def sum (items : List Value) : Value :=
  if items.all isWhole then
    match items.filterMap Value.asInt? with
    | [] => .null
    | numbers => .int (numbers.foldl (· + ·) 0)
  else
    match items.filterMap Value.asFloat? with
    | [] => .null
    | numbers => .float (floatSum numbers)

/-- The mean of the numbers among the elements, or null without one. -/
def mean (items : List Value) : Value :=
  match items.filterMap Value.asFloat? with
  | [] => .null
  | numbers => .float (floatSum numbers / Binary64.ofInt numbers.length)

/--
The first number among the elements that no later one improves on.  Numbers are compared as
floating-point numbers.
-/
def extreme (better : Binary64 → Binary64 → Bool) (items : List Value) : Value :=
  let best := items.foldl (fun (best : Option (Value × Binary64)) item =>
    match item.asFloat?, best with
    | none, _ => best
    | some number, some (_, holder) => if better number holder then some (item, number) else best
    | some number, none => some (item, number)) none
  Value.ofOption (best.map Prod.fst)

/-- The result of an enumeration method on the elements of a collection. -/
def apply (method : EnumerationMethod) (items arguments : List Value) : Value :=
  match method with
  | countOf => .int (Int64.ofNat items.length)
  | firstOf => Value.ofOption items.head?
  | lastOf => Value.ofOption items.getLast?
  | take => .array (items.take (countArgument arguments))
  | takeLast => .array (items.drop (items.length - countArgument arguments))
  | distinctOf => .array (distinct items)
  | reverse => .array items.reverse
  | sumOf => sum items
  | average => mean items
  | minOf => extreme (fun number holder => number.below holder) items
  | maxOf => extreme (fun number holder => holder.below number) items

end EnumerationMethod

/-- A built-in method. -/
inductive Builtin where
  | calendar (method : CalendarMethod)
  | enumeration (method : EnumerationMethod)
  deriving DecidableEq, Repr

/-- A built-in method with the types that it has on one receiver. -/
structure BuiltinSignature where
  method : Builtin
  parameters : List ValueType
  returns : ValueType
  deriving DecidableEq, Repr

namespace Builtin

/-- The name that a chain calls the method by. -/
def name : Builtin → String
  | calendar method => method.name
  | enumeration method => method.name

/-- Whether the elements of the receiver must be numbers. -/
def needsNumbers : Builtin → Bool
  | calendar _ => false
  | enumeration method => method.needsNumbers

/-- The names of the built-in methods of a type. -/
def namesFor : ValueType → List String
  | .timestamp => CalendarMethod.all.map CalendarMethod.name
  | .array _ => EnumerationMethod.all.map EnumerationMethod.name
  | _ => []

/-- The built-in method of a type by name and number of arguments. -/
def lookup (receiver : ValueType) (name : String) (arity : Nat) : Option BuiltinSignature :=
  match receiver with
  | .timestamp => do
      let method ← CalendarMethod.all.find? fun method =>
        method.name == name && method.parameters.length == arity
      return ⟨.calendar method, method.parameters, method.returns⟩
  | .array element => do
      let method ← EnumerationMethod.all.find? fun method =>
        method.name == name && method.parameters.length == arity
      return ⟨.enumeration method, method.parameters, method.returns element⟩
  | _ => none

/-- The result of a built-in method on a receiver that is not null. -/
def apply (builtin : Builtin) (receiver : Value) (arguments : List Value) : Except Fault Value :=
  match builtin, receiver with
  | calendar method, .timestamp nanos => method.apply nanos arguments
  | enumeration method, .array items => .ok (method.apply items arguments)
  | _, other => .error (.invalidOperand builtin.name (.unexpectedReceiver other.kindName))

end Builtin

end EventQuery
