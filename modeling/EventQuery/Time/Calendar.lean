namespace EventQuery

/-!
# Calendar of a timestamp

A timestamp counts nanoseconds from the first moment of 1970.  Its calendar parts are those of the
Gregorian calendar extended to all years, in universal time, and every day has 86400 seconds.
-/

/-- A point of time in nanoseconds, split into the parts that the calendar names. -/
structure CalendarTime where
  year : Int
  month : Nat
  day : Nat
  hour : Nat
  minute : Nat
  second : Nat
  /-- The day of the week: 1 is Sunday and 7 is Saturday. -/
  weekday : Nat
  deriving DecidableEq, Repr

/-- A calendar day. -/
structure CalendarDay where
  year : Int
  month : Nat
  day : Nat
  deriving DecidableEq, Repr

namespace CalendarDay

/--
The day with a given number, day zero being the first of January 1970.  Days are counted in eras of
400 years that start in March, so that the leap day ends a year.
-/
def ofDayNumber (number : Int) : CalendarDay :=
  let shifted := number + 719468
  let era := shifted.fdiv 146097
  let dayOfEra := (shifted.fmod 146097).toNat
  let yearOfEra :=
    (dayOfEra - dayOfEra / 1460 + dayOfEra / 36524 - dayOfEra / 146096) / 365
  let dayOfYear := dayOfEra - (365 * yearOfEra + yearOfEra / 4 - yearOfEra / 100)
  let monthFromMarch := (5 * dayOfYear + 2) / 153
  let day := dayOfYear - (153 * monthFromMarch + 2) / 5 + 1
  let month := if monthFromMarch < 10 then monthFromMarch + 3 else monthFromMarch - 9
  { year := era * 400 + yearOfEra + (if month ≤ 2 then 1 else 0)
    month
    day }

end CalendarDay

namespace CalendarTime

/-- The number of nanoseconds in a second. -/
def nanosPerSecond : Int := 1000000000

/-- The calendar parts of a number of nanoseconds; a part of a second is dropped. -/
def ofNanos (nanos : Int) : CalendarTime :=
  let seconds := nanos.fdiv nanosPerSecond
  let dayNumber := seconds.fdiv 86400
  let secondOfDay := (seconds.fmod 86400).toNat
  let date := CalendarDay.ofDayNumber dayNumber
  { year := date.year
    month := date.month
    day := date.day
    hour := secondOfDay / 3600
    minute := secondOfDay / 60 % 60
    second := secondOfDay % 60
    weekday := ((dayNumber + 4).fmod 7).toNat + 1 }

/-- A number in decimal with leading zeros up to a width. -/
private def padded (width : Nat) (n : Nat) : String :=
  let digits := Nat.toDigits 10 n
  String.ofList (List.replicate (width - digits.length) '0' ++ digits)

/-- The text of a point of time, to the second, as in `2024-01-31T09:05:00Z`. -/
def text (time : CalendarTime) : String :=
  padded 4 time.year.toNat ++ "-" ++ padded 2 time.month ++ "-" ++ padded 2 time.day ++ "T" ++
    padded 2 time.hour ++ ":" ++ padded 2 time.minute ++ ":" ++ padded 2 time.second ++ "Z"

end CalendarTime

end EventQuery
