import EventQuery.Number.Shortest
import EventQuery.Time.Calendar
import EventQuery.Value.Basic

namespace EventQuery

/-!
# The text of values

Every value has a written form, used in expression texts, group texts and messages.  Strings stand
in single quotes without escapes, and an entity shows only its kind.
-/

namespace Value

/-- A length of time in its largest whole unit, from hours down to milliseconds. -/
def durationText (nanos : Nat) : String :=
  let seconds := nanos / 1000000000
  if 3600 ≤ seconds then toString (seconds / 3600) ++ "h"
  else if 60 ≤ seconds then toString (seconds / 60) ++ "m"
  else if 0 < seconds then toString seconds ++ "s"
  else toString (nanos / 1000000) ++ "ms"

/-- A point of time, to the second. -/
def timestampText (nanos : Int) : String := "@" ++ (CalendarTime.ofNanos nanos).text

mutual

/-- The written form of a value. -/
def text : Value → String
  | .null => "null"
  | .bool truth => if truth then "true" else "false"
  | .int number => toString number.toInt
  | .float number => number.text
  | .str content => "'" ++ content ++ "'"
  | .timestamp nanos => timestampText nanos.toInt
  | .duration nanos => durationText nanos.toNat
  | .array items => "[" ++ String.intercalate ", " (itemTexts items) ++ "]"
  | .map entries => "\x7b" ++ String.intercalate ", " (entryTexts entries) ++ "\x7d"
  | .event entity => "<" ++ entity.kind ++ ">"
  | .object entity => "<" ++ entity.kind ++ ">"

/-- The written forms of the elements of a collection. -/
def itemTexts : List Value → List String
  | [] => []
  | item :: rest => text item :: itemTexts rest

/-- The written forms of the entries of a map. -/
def entryTexts : List (String × Value) → List String
  | [] => []
  | (key, value) :: rest => (key ++ ": " ++ text value) :: entryTexts rest

end

end Value

end EventQuery
