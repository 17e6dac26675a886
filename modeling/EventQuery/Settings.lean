namespace EventQuery

/-!
# Settings

The settings of a processor, with their defaults.  Times are given in milliseconds and used in
nanoseconds.
-/

/-- The settings of a processor. -/
structure Settings where
  /-- The number of live filters and timers from which on a pattern starts no more matches. -/
  maxPartialMatches : Nat := 10000
  /-- The time after which an idle group is dropped, if groups are dropped at all. -/
  reclaimGroupAfter : Option Nat := none
  /-- The least time between two searches for idle groups. -/
  reclaimFrequency : Nat := 5000
  tickInterval : Nat := 100
  logLevel : String := "info"
  logFormat : String := "text"
  deriving DecidableEq, Repr

namespace Settings

/-- The settings of a processor for which nothing is set. -/
def standard : Settings := {}

/-- The nanoseconds in some milliseconds. -/
def nanos (milliseconds : Nat) : Nat := milliseconds * 1000000

/-- The nanoseconds after which an idle group is dropped. -/
def reclaimAfterNanos (settings : Settings) : Option Nat := settings.reclaimGroupAfter.map nanos

/-- The least number of nanoseconds between two searches for idle groups. -/
def reclaimEveryNanos (settings : Settings) : Nat := nanos settings.reclaimFrequency

/-- The nanoseconds between two ticks of the clock. -/
def tickNanos (settings : Settings) : Nat := nanos settings.tickInterval

end Settings

end EventQuery
