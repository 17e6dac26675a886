import EventQuery.Pattern.State

namespace EventQuery

/-!
# Pattern engines

An engine holds the states of one running pattern.  What remains to be done about an event or a
point of time is a list of tasks, and the engine is at rest when the list is empty.
-/

/-- One thing to be done in an engine. -/
inductive Task where
  /-- A created state starts to run. -/
  | activate (state : Ticket)
  /-- An operand starts to run, or is dropped when its owner is already gone. -/
  | operand (owner : Ticket) (state : Ticket)
  /-- The absence that a negation waits for holds so far. -/
  | absence (state : Ticket)
  /-- A signal goes to a state, or without a receiver out of the pattern. -/
  | report (receiver : Option Ticket) (sender : Ticket) (signal : Signal)
  /-- The pattern under `every` starts over. -/
  | rearm (state : Ticket)
  /-- The next round of a repetition starts. -/
  | iterate (state : Ticket)
  /-- A waiting filter is shown an event. -/
  | offer (state : Ticket) (event : Event)
  /-- The deadline of a state has come. -/
  | expire (state : Ticket)

/-- The live partial matches of one pattern. -/
structure Engine where
  pattern : CompiledPattern
  states : Pool PatternState
  root : Option Ticket
  /-- The waiting filters by node and creation. -/
  filters : StateIndex
  /-- The open deadlines by time and creation. -/
  deadlines : StateIndex
  /-- The number under which the next state is created. -/
  next : Nat
  now : Int
  /-- The number of live filters and timers from which on no sequence goes on to its right side. -/
  limit : Nat
  /-- The most tasks that are performed in one call. -/
  patience : Nat
  /-- The number of live filters and timers. -/
  leaves : Nat
  /-- The matches that have not been handed out, oldest first. -/
  completed : List Row
  /-- The faults of predicates and guards that have not been handed out, oldest first. -/
  faults : List Fault
  agenda : List Task

namespace Engine

/-- An engine without states. -/
def idle (pattern : CompiledPattern) (limit patience : Nat) (now : Int) : Engine :=
  { pattern, limit, patience, now
    states := .empty
    root := none
    filters := []
    deadlines := []
    next := 0
    leaves := 0
    completed := []
    faults := []
    agenda := [] }

/-- The node that a state runs. -/
def nodeOf (engine : Engine) (state : PatternState) : Option PatternNode :=
  engine.pattern.nodes[state.node]?

/-- A new state for a node of the pattern. -/
def create (engine : Engine) (node : Nat) (parent : Option Ticket) (bindings : Row) :
    Engine × Ticket :=
  let progress := (engine.pattern.nodes[node]?.map (Progress.initial engine.now bindings)).getD
    .filter
  let (states, ticket) := engine.states.insert ⟨node, parent, engine.next, bindings, progress⟩
  ({ engine with states, next := engine.next + 1 }, ticket)

/-- New states for several nodes, in order. -/
def createAll (engine : Engine) (parent : Ticket) (bindings : Row) :
    List Nat → Engine × List Ticket
  | [] => (engine, [])
  | node :: rest =>
      let (first, ticket) := engine.create node (some parent) bindings
      let (last, tickets) := first.createAll parent bindings rest
      (last, ticket :: tickets)

/-- Change the progress of a state. -/
def update (engine : Engine) (ticket : Ticket) (change : Progress → Progress) : Engine :=
  { engine with states := engine.states.modify ticket fun state => state.advance change }

/-- A filter waits for events from now on. -/
def await (engine : Engine) (ticket : Ticket) (state : PatternState) : Engine :=
  { engine with
    filters := engine.filters.insert ⟨state.node, state.created⟩ ticket
    leaves := engine.leaves + 1 }

/-- A deadline of a state counts from now on. -/
def schedule (engine : Engine) (ticket : Ticket) (state : PatternState) (deadline : Int) :
    Engine :=
  { engine with deadlines := engine.deadlines.insert ⟨deadline, state.created⟩ ticket }

/-- A state that is gone waits for nothing more. -/
def unlist (engine : Engine) (state : PatternState) : Engine :=
  match state.progress with
  | .filter =>
      let rank : Rank := ⟨state.node, state.created⟩
      { engine with
        filters := engine.filters.erase rank
        leaves := if engine.filters.contains rank then engine.leaves - 1 else engine.leaves }
  | .timer deadline =>
      let rank : Rank := ⟨deadline, state.created⟩
      { engine with
        deadlines := engine.deadlines.erase rank
        leaves := if engine.deadlines.contains rank then engine.leaves - 1 else engine.leaves }
  | .within _ deadline _ =>
      { engine with deadlines := engine.deadlines.erase ⟨deadline, state.created⟩ }
  | _ => engine

/-- Drop states together with everything below them. -/
def release (engine : Engine) (tickets : List Ticket) : Engine :=
  match tickets with
  | [] => engine
  | ticket :: rest =>
      match taken : engine.states.take ticket with
      | none => engine.release rest
      | some (state, states) =>
          have fewer : states.size < engine.states.size := by
            have := Pool.size_of_take taken
            omega
          { engine.unlist state with states }.release (state.progress.children ++ rest)
termination_by (engine.states.size, tickets.length)
decreasing_by
  · exact Prod.Lex.right _ (Nat.lt_succ_self _)
  · exact Prod.Lex.left _ _ fewer

/-- A state is gone and tells its parent why. -/
def finish (engine : Engine) (ticket : Ticket) (signal : Signal) : Engine × List Task :=
  match engine.states.get? ticket with
  | none => (engine, [])
  | some state => (engine.release [ticket], [.report state.parent ticket signal])

/-- The only operand of a state, or the left one of a sequence, is created and is to run. -/
def startChild (engine : Engine) (owner : Ticket) (child : Nat) (bindings : Row) :
    Engine × List Task :=
  let (created, ticket) := engine.create child (some owner) bindings
  (created.update owner (Progress.withChild ticket), [.activate ticket])

/-- All operands of a state are created and are to run. -/
def startOperands (engine : Engine) (owner : Ticket) (operands : List Nat) (bindings : Row) :
    Engine × List Task :=
  let (created, tickets) := engine.createAll owner bindings operands
  (created.update owner (Progress.withOperands tickets), tickets.map (Task.operand owner))

/-- Whether a condition holds on a row.  A fault is kept and counts as a condition that fails. -/
def test (engine : Engine) (condition : Node) (row : Row) : Engine × Bool :=
  match condition.passes row [] with
  | .ok holds => (engine, holds)
  | .error fault => ({ engine with faults := engine.faults ++ [fault] }, false)

/-- Whether the pattern can produce no further match. -/
def isFinished (engine : Engine) : Bool := engine.root.isNone

/-- Whether nothing remains to be done. -/
def isAtRest (engine : Engine) : Bool := engine.agenda.isEmpty

/-- The number of live filters and timers. -/
def partialMatchCount (engine : Engine) : Nat := engine.leaves

/-- The number of live states. -/
def stateCount (engine : Engine) : Nat := engine.states.size

end Engine

end EventQuery
