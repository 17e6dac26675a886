import EventQuery.Aggregate.Store
import EventQuery.Pattern.Run
import EventQuery.Settings
import EventQuery.Statement.Join

namespace EventQuery

/-!
# Running statements

A running statement holds the engine of its pattern, the events that can still be joined, its open
groups and the rows of its window.  The aggregation states themselves are in a store that statements
share, and a group holds their handles.
-/

/-- An open group of a statement. -/
structure OpenGroup where
  key : GroupKey
  /-- One handle for each aggregation. -/
  handles : List StateHandle
  /-- The time of the last row. -/
  lastUpdate : Int

/-- A row in a window. -/
structure WindowRow where
  row : Row
  group : GroupKey
  /-- The number of the different states that the row entered before a fault. -/
  entered : Nat

/-- A running statement. -/
structure Statement where
  id : StatementId
  plan : Plan
  engine : Option Engine
  groups : List OpenGroup
  /-- The rows that aggregations cover, oldest first, when there is a bound. -/
  window : List WindowRow
  buffers : JoinBuffers
  /-- The time after which an idle group is dropped, if groups are dropped at all. -/
  reclaimAfter : Option Int
  /-- The least time between two searches for idle groups. -/
  reclaimEvery : Int
  lastReclaim : Int
  now : Int
  stopped : Bool

namespace Statement

/-- A statement before its first event. -/
def idle (id : StatementId) (plan : Plan) (settings : Settings) (patience : Nat) (now : Int) :
    Statement where
  id := id
  plan := plan
  engine :=
    match plan.source with
    | .pattern pattern => some (Engine.start pattern settings.maxPartialMatches patience now)
    | _ => none
  groups := []
  window := []
  buffers := .empty
  reclaimAfter := settings.reclaimAfterNanos.map fun nanos => min nanos Progress.lastMoment
  reclaimEvery := min settings.reclaimEveryNanos Progress.lastMoment
  lastReclaim := now
  now := now
  stopped := false

/-- The open group of a key. -/
def group? (statement : Statement) (key : GroupKey) : Option OpenGroup :=
  statement.groups.find? fun group => group.key.same key

/-- The handles of the different states of a group, in order. -/
def distinctHandles (statement : Statement) (handles : List StateHandle) : List StateHandle :=
  statement.plan.distinctPositions.filterMap fun position => handles[position]?

/-- The number of open groups. -/
def groupCount (statement : Statement) : Nat := statement.groups.length

/-- The number of live filters and timers of the pattern. -/
def partialMatchCount (statement : Statement) : Nat :=
  (statement.engine.map Engine.partialMatchCount).getD 0

end Statement

end EventQuery
