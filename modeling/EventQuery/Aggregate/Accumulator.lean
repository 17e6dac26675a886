import EventQuery.Aggregate.ExtremeSet
import EventQuery.Aggregate.Spread
import EventQuery.Fault
import EventQuery.Number.Word
import EventQuery.Value.Text

namespace EventQuery

/-!
# Accumulators

An accumulator holds what one aggregation function needs to know of the rows of a group.  A row is
entered by the value of the function's argument and taken out again by the same value.  An update
that is a fault leaves the accumulator as it was.
-/

/-- The aggregation functions over one argument. -/
inductive AggregateKind where
  | count
  | sum
  | avg
  | min
  | max
  | stddev
  | first
  | last
  deriving DecidableEq, Repr

namespace AggregateKind

/-- Every function. -/
def all : List AggregateKind := [count, sum, avg, min, max, stddev, first, last]

/-- The name that a call is written with, in lower case. -/
def name : AggregateKind → String
  | count => "count"
  | sum => "sum"
  | avg => "avg"
  | min => "min"
  | max => "max"
  | stddev => "stddev"
  | first => "first"
  | last => "last"

end AggregateKind

/-- A running sum.  The integer sum counts as long as only integers have been added. -/
structure RunningSum where
  count : Nat
  whole : Int64
  total : Binary64
  allWhole : Bool
  deriving Repr, Inhabited

namespace RunningSum

/-- The sum of nothing. -/
def empty : RunningSum := ⟨0, 0, .zero, true⟩

/-- An integer is added.  The integer sum must stay within the 64-bit range while it counts. -/
def insertWhole (sum : RunningSum) (number : Int64) : Except Fault RunningSum := do
  let whole ←
    if sum.allWhole then
      match Word.checked (sum.whole.toInt + number.toInt) with
      | some whole => pure whole
      | none => throw (.invalidOperand "sum" (.overflowAdding (toString number.toInt)))
    else pure sum.whole
  return { sum with
    count := sum.count + 1
    whole
    total := sum.total + Binary64.ofInt number.toInt }

/-- An integer is taken out; the integer sum wraps. -/
def eraseWhole (sum : RunningSum) (number : Int64) : RunningSum :=
  { sum with
    count := sum.count - 1
    whole := if sum.allWhole then sum.whole - number else sum.whole
    total := sum.total - Binary64.ofInt number.toInt }

/-- A floating-point number is added, and from then on the sum is one. -/
def insertFloat (sum : RunningSum) (number : Binary64) : RunningSum :=
  { sum with count := sum.count + 1, total := sum.total + number, allWhole := false }

/-- A floating-point number is taken out. -/
def eraseFloat (sum : RunningSum) (number : Binary64) : RunningSum :=
  { sum with count := sum.count - 1, total := sum.total - number }

/-- The sum, or null without numbers. -/
def value (sum : RunningSum) : Value :=
  if sum.count = 0 then .null
  else if sum.allWhole then .int sum.whole
  else .float sum.total

end RunningSum

/-- What an aggregation function knows of the rows of a group. -/
inductive Accumulator where
  | count (rows : Int)
  | sum (running : RunningSum)
  | avg (size : Nat) (total : Binary64)
  | min (values : ExtremeSet)
  | max (values : ExtremeSet)
  | stddev (spread : Spread)
  /-- The first value, once there is one. -/
  | first (value : Option Value)
  | last (value : Value)
  /-- All values in order of arrival, where rows may leave: the first one counts. -/
  | firstHeld (values : List Value)
  /-- All values in order of arrival, where rows may leave: the last one counts. -/
  | lastHeld (values : List Value)
  deriving Repr, Inhabited

namespace Accumulator

/-- The accumulator of a group without rows; `windowed` tells whether rows may leave it. -/
def empty (windowed : Bool) : AggregateKind → Accumulator
  | .count => .count 0
  | .sum => .sum .empty
  | .avg => .avg 0 .zero
  | .min => .min .empty
  | .max => .max .empty
  | .stddev => .stddev .empty
  | .first => if windowed then .firstHeld [] else .first none
  | .last => if windowed then .lastHeld [] else .last .null

/-- The fault of a function over numbers that meets another value. -/
def notNumber (function : String) (value : Value) : Fault :=
  .invalidOperand function (.notNumber value.kindName)

/-- The number in a value for a function over numbers; a null is skipped. -/
def number? (function : String) (value : Value) : Except Fault (Option Binary64) :=
  if value.isNull then .ok none
  else
    match value.asFloat? with
    | some number => .ok (some number)
    | none => .error (notNumber function value)

/-- A value joins a running sum; a null is skipped. -/
def insertSum (sum : RunningSum) : Value → Except Fault RunningSum
  | .null => .ok sum
  | .int number => sum.insertWhole number
  | .float number => .ok (sum.insertFloat number)
  | other => .error (notNumber "sum" other)

/-- A value leaves a running sum. -/
def eraseSum (sum : RunningSum) : Value → Except Fault RunningSum
  | .null => .ok sum
  | .int number => .ok (sum.eraseWhole number)
  | .float number => .ok (sum.eraseFloat number)
  | other => .error (notNumber "sum" other)

/-- A row enters by the value of the argument; without an argument every row counts. -/
def enter (accumulator : Accumulator) (input : Option Value) : Except Fault Accumulator := do
  let value := Value.ofOption input
  match accumulator with
  | count rows =>
      return .count (if input.isSome && value.isNull then rows else rows + 1)
  | sum running => return .sum (← insertSum running value)
  | avg size total =>
      match ← number? "avg" value with
      | some number => return .avg (size + 1) (total + number)
      | none => return accumulator
  | min values => return .min (if value.isNull then values else values.insert value)
  | max values => return .max (if value.isNull then values else values.insert value)
  | stddev spread =>
      match ← number? "stddev" value with
      | some number => return .stddev (spread.insert number)
      | none => return accumulator
  | first none => return .first (some value)
  | first (some _) => return accumulator
  | last _ => return .last value
  | firstHeld values => return .firstHeld (values ++ [value])
  | lastHeld values => return .lastHeld (values ++ [value])

/-- A row leaves by the value of the argument.  Held values leave in order of arrival. -/
def leave (accumulator : Accumulator) (input : Option Value) : Except Fault Accumulator := do
  let value := Value.ofOption input
  match accumulator with
  | count rows =>
      return .count (if input.isSome && value.isNull then rows else Max.max (rows - 1) 0)
  | sum running => return .sum (← eraseSum running value)
  | avg size total =>
      match ← number? "avg" value with
      | some number => return .avg (size - 1) (total - number)
      | none => return accumulator
  | min values => return .min (if value.isNull then values else values.erase value)
  | max values => return .max (if value.isNull then values else values.erase value)
  | stddev spread =>
      match ← number? "stddev" value with
      | some number => return .stddev (spread.erase number)
      | none => return accumulator
  | first _ => return accumulator
  | last _ => return accumulator
  | firstHeld values => return .firstHeld (values.drop 1)
  | lastHeld values => return .lastHeld (values.drop 1)

/-- The result of the function for the rows entered and not left. -/
def value : Accumulator → Value
  | count rows => .int (Int64.ofInt rows)
  | sum running => running.value
  | avg size total => if size = 0 then .null else .float (total / Binary64.ofInt size)
  | min values => values.least
  | max values => values.greatest
  | stddev spread =>
      match spread.deviation? with
      | some deviation => .float deviation
      | none => .null
  | first value => Value.ofOption value
  | last value => value
  | firstHeld values => Value.ofOption values.head?
  | lastHeld values => Value.ofOption values.getLast?

end Accumulator

end EventQuery
