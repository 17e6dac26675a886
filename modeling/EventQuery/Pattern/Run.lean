import EventQuery.Pattern.Step

namespace EventQuery

/-!
# Running a pattern

An engine is started at a point of time, and is then given events and points of time.  Each call
performs tasks until the engine is at rest or its patience ends, and hands out the matches completed
up to then.
-/

namespace Engine

/-- The filters that wait for events of a type, in the order of their index. -/
def candidates (engine : Engine) (eventType : String) : List Ticket :=
  engine.filters.filterMap fun (_, ticket) =>
    match (engine.states.get? ticket).bind engine.nodeOf with
    | some (.filter awaited _ _) => if awaited = eventType then some ticket else none
    | _ => none

/-- The completed matches are handed out. -/
def handOut (engine : Engine) : Engine × List Row :=
  ({ engine with completed := [] }, engine.completed)

/-- Start to match at a point of time. -/
def start (pattern : CompiledPattern) (limit patience : Nat) (now : Int) : Engine :=
  let bindings := List.replicate pattern.width Value.null
  let (created, root) :=
    (idle pattern limit patience now).create CompiledPattern.rootNumber none bindings
  settle { created with root := some root, agenda := [.activate root] }

/-- Show one event to every filter that waits for it, and hand out the completed matches. -/
def advance (engine : Engine) (event : Event) : Engine × List Row :=
  let offers := (engine.candidates event.kind).map fun ticket => Task.offer ticket event
  (settle { engine with agenda := engine.agenda ++ offers }).handOut

/--
Move the time forward, let every deadline that has come pass, and hand out the completed matches.
Time never moves back.
-/
def advanceTime (engine : Engine) (now : Int) : Engine × List Row :=
  let present := max engine.now now
  let expiries := (engine.deadlines.upTo present).map Task.expire
  (settle { engine with now := present, agenda := engine.agenda ++ expiries }).handOut

/-- Drop every partial match and deadline. -/
def stop (engine : Engine) : Engine :=
  { engine with
    states := engine.states.clear
    root := none
    filters := []
    deadlines := []
    leaves := 0
    completed := []
    agenda := [] }

/-- The faults of predicates and guards are handed out. -/
def drainFaults (engine : Engine) : Engine × List Fault :=
  ({ engine with faults := [] }, engine.faults)

end Engine

end EventQuery
