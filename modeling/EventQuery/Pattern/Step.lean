import EventQuery.Pattern.Engine

namespace EventQuery

/-!
# Steps of an engine

Performing one task changes the engine and yields the tasks that come next.  A signal goes up one
parent at a time: each operator decides what the match or failure of an operand means for itself and
what it reports in turn.
-/

namespace Engine

/-- A report of a state that goes on running. -/
def reportMatch (state : PatternState) (ticket : Ticket) (bindings : Row) : Task :=
  .report state.parent ticket (.matched bindings false)

/-- Collect the bindings of a finished round at the inner slots. -/
def collect (collected bindings : Row) (innerSlots : List Nat) : Row :=
  innerSlots.foldl
    (fun row slot =>
      match row.get slot with
      | .array items => row.set slot (.array (items ++ [bindings.get slot]))
      | _ => row)
    collected

/-- The bindings with which a round starts: those collected, with the inner slots unbound. -/
def roundBindings (collected : Row) (innerSlots : List Nat) : Row :=
  innerSlots.foldl (fun row slot => row.set slot .null) collected

/-- A created state starts to run. -/
def activate (engine : Engine) (ticket : Ticket) : Engine × List Task :=
  match engine.states.get? ticket with
  | none => (engine, [])
  | some state =>
      match engine.nodeOf state, state.progress with
      | some (.filter _ _ _), _ => (engine.await ticket state, [])
      | some (.timer _), .timer deadline =>
          ({ engine.schedule ticket state deadline with leaves := engine.leaves + 1 }, [])
      | some (.every child), _ => engine.startChild ticket child state.bindings
      | some (.sequence left _), _ => engine.startChild ticket left state.bindings
      | some (.alternation children), _ => engine.startOperands ticket children state.bindings
      | some (.conjunction children), _ => engine.startOperands ticket children state.bindings
      | some (.repetition child _ _ innerSlots), .repetition _ _ collected =>
          engine.startChild ticket child (roundBindings collected innerSlots)
      | some (.negation child), _ =>
          let (started, tasks) := engine.startChild ticket child state.bindings
          (started, tasks ++ [.absence ticket])
      | some (.within child _ _), .within _ deadline _ =>
          (engine.schedule ticket state deadline).startChild ticket child state.bindings
      | some (.guarded child _), _ => engine.startChild ticket child state.bindings
      | _, _ => (engine, [])

/-- A match without a receiver is a match of the pattern; a last match or a failure ends it. -/
def conclude (engine : Engine) : Signal → Engine
  | .matched bindings isLast =>
      { engine with
        completed := engine.completed ++ [bindings]
        root := if isLast then none else engine.root }
  | .failed _ => { engine with root := none }

/-- The only operand of a state is gone when its match was the last one. -/
def dropChildIf (engine : Engine) (ticket : Ticket) (isGone : Bool) : Engine :=
  if isGone then engine.update ticket Progress.withoutChild else engine

/-- A pattern under `every` passes each match on and starts over when its operand is gone. -/
def receiveEvery (engine : Engine) (ticket : Ticket) (state : PatternState) :
    Signal → Engine × List Task
  | .matched bindings isLast =>
      (engine.dropChildIf ticket isLast,
        reportMatch state ticket bindings :: if isLast then [.rearm ticket] else [])
  | .failed restartable =>
      let dropped := engine.update ticket Progress.withoutChild
      if restartable then (dropped, [.rearm ticket]) else dropped.finish ticket (.failed false)

/-- A sequence in which nothing runs any more has failed. -/
def failIfExhausted (engine : Engine) (ticket : Ticket) (restartable : Bool) :
    Engine × List Task :=
  match (engine.states.get? ticket).map PatternState.progress with
  | some (.sequence none []) => engine.finish ticket (.failed restartable)
  | _ => (engine, [])

/-- A match of the left operand starts a right one, unless too many leaves are alive. -/
def receiveLeft (engine : Engine) (ticket : Ticket) (right : Nat) :
    Signal → Engine × List Task
  | .matched bindings isLast =>
      let dropped := engine.dropChildIf ticket isLast
      if dropped.limit ≤ dropped.leaves then
        dropped.failIfExhausted ticket true
      else
        let (created, child) := dropped.create right (some ticket) bindings
        (created.update ticket (Progress.withRight child), [.activate child])
  | .failed restartable =>
      (engine.update ticket Progress.withoutChild).failIfExhausted ticket restartable

/-- A match of a right operand is a match of the sequence, its last one when nothing else runs. -/
def receiveRight (engine : Engine) (ticket : Ticket) (state : PatternState) (sender : Ticket) :
    Signal → Engine × List Task
  | .matched bindings isLast =>
      let change := if isLast then Progress.withoutRight sender else id
      match change state.progress with
      | .sequence none [] =>
          (engine.update ticket change).finish ticket (.matched bindings true)
      | _ => (engine.update ticket change, [reportMatch state ticket bindings])
  | .failed restartable =>
      (engine.update ticket (Progress.withoutRight sender)).failIfExhausted ticket restartable

/-- The first last match of an operand ends an alternation; it fails when no operand is left. -/
def receiveAlternation (engine : Engine) (ticket : Ticket) (state : PatternState)
    (children : List Ticket) (sender : Ticket) : Signal → Engine × List Task
  | .matched bindings true => engine.finish ticket (.matched bindings true)
  | .matched bindings false => (engine, [reportMatch state ticket bindings])
  | .failed restartable =>
      let left := children.filter fun child => child != sender
      let reduced := engine.update ticket fun _ => .alternation left
      if left.isEmpty then reduced.finish ticket (.failed restartable) else (reduced, [])

/-- A conjunction matches once, when every operand has matched; the failure of one ends it. -/
def receiveConjunction (engine : Engine) (ticket : Ticket) (state : PatternState)
    (operands : List Conjunct) (sender : Ticket) : Signal → Engine × List Task
  | .matched bindings isLast =>
      let recorded := Conjunct.record operands sender bindings isLast
      let changed := engine.update ticket fun _ => .conjunction recorded
      if recorded.all fun operand => operand.bindings.isSome then
        changed.finish ticket (.matched (Conjunct.merge state.bindings recorded) true)
      else (changed, [])
  | .failed restartable => engine.finish ticket (.failed restartable)

/--
A repetition collects each match of its operand, matches from its least number of rounds on, and for
the last time at its greatest.
-/
def receiveRepetition (engine : Engine) (ticket : Ticket) (state : PatternState)
    (least : Nat) (most : Option Nat) (innerSlots : List Nat) (child : Option Ticket)
    (rounds : Nat) (collected : Row) : Signal → Engine × List Task
  | .matched bindings isLast =>
      let total := collect collected bindings innerSlots
      let counted := engine.update ticket fun _ =>
        .repetition (if isLast then none else child) (rounds + 1) total
      if most = some (rounds + 1) then
        counted.finish ticket (.matched total true)
      else if least ≤ rounds + 1 then
        (counted, [reportMatch state ticket total, .iterate ticket])
      else (counted, [.iterate ticket])
  | .failed restartable => engine.finish ticket (.failed restartable)

/-- A negation fails when its operand matches, and holds for good when its operand fails. -/
def receiveNegation (engine : Engine) (ticket : Ticket) : Signal → Engine × List Task
  | .matched _ _ => engine.finish ticket (.failed true)
  | .failed _ => (engine.update ticket Progress.withoutChild, [])

/-- A time bound passes matches on; those of an absence are held until the time is over. -/
def receiveWithin (engine : Engine) (ticket : Ticket) (state : PatternState) (absence : Bool)
    (child : Option Ticket) (deadline : Int) : Signal → Engine × List Task
  | .matched bindings isLast =>
      if absence then
        (engine.update ticket fun _ => .within child deadline (some bindings), [])
      else if isLast then engine.finish ticket (.matched bindings true)
      else (engine, [reportMatch state ticket bindings])
  | .failed restartable => engine.finish ticket (.failed restartable)

/-- A guard passes matches on which it holds; another match ends the partial match. -/
def receiveGuarded (engine : Engine) (ticket : Ticket) (state : PatternState) (guard : Node) :
    Signal → Engine × List Task
  | .matched bindings isLast =>
      let (tested, holds) := engine.test guard bindings
      if !holds then tested.finish ticket (.failed true)
      else if isLast then tested.finish ticket (.matched bindings true)
      else (tested, [reportMatch state ticket bindings])
  | .failed restartable => engine.finish ticket (.failed restartable)

/-- A signal of an operand reaches a state. -/
def receive (engine : Engine) (ticket : Ticket) (sender : Ticket) (signal : Signal) :
    Engine × List Task :=
  match engine.states.get? ticket with
  | none => (engine, [])
  | some state =>
      match engine.nodeOf state, state.progress with
      | some (.every _), _ => engine.receiveEvery ticket state signal
      | some (.sequence _ right), .sequence left _ =>
          if left = some sender then engine.receiveLeft ticket right signal
          else engine.receiveRight ticket state sender signal
      | some (.alternation _), .alternation children =>
          engine.receiveAlternation ticket state children sender signal
      | some (.conjunction _), .conjunction operands =>
          engine.receiveConjunction ticket state operands sender signal
      | some (.repetition _ least most innerSlots), .repetition child rounds collected =>
          engine.receiveRepetition ticket state least most innerSlots child rounds collected signal
      | some (.negation _), _ => engine.receiveNegation ticket signal
      | some (.within _ _ absence), .within child deadline _ =>
          engine.receiveWithin ticket state absence child deadline signal
      | some (.guarded _ guard), _ => engine.receiveGuarded ticket state guard signal
      | _, _ => (engine, [])

/-- The pattern under `every` starts over, unless its operand runs. -/
def rearm (engine : Engine) (ticket : Ticket) : Engine × List Task :=
  match engine.states.get? ticket with
  | none => (engine, [])
  | some state =>
      match engine.nodeOf state, state.progress with
      | some (.every child), .every none => engine.startChild ticket child state.bindings
      | _, _ => (engine, [])

/-- The next round of a repetition starts, unless its operand runs. -/
def iterate (engine : Engine) (ticket : Ticket) : Engine × List Task :=
  match engine.states.get? ticket with
  | none => (engine, [])
  | some state =>
      match engine.nodeOf state, state.progress with
      | some (.repetition child _ _ innerSlots), .repetition none _ collected =>
          engine.startChild ticket child (roundBindings collected innerSlots)
      | _, _ => (engine, [])

/-- A waiting filter is shown an event: it matches when its predicate holds. -/
def offer (engine : Engine) (ticket : Ticket) (event : Event) : Engine × List Task :=
  match engine.states.get? ticket with
  | none => (engine, [])
  | some state =>
      match engine.nodeOf state with
      | some (.filter _ slot predicate) =>
          let (tested, holds) :=
            match predicate with
            | none => (engine, true)
            | some condition => engine.test condition (state.bindings ++ [Value.event event])
          if holds then
            let bindings :=
              match slot with
              | none => state.bindings
              | some slot => state.bindings.set slot (.event event)
            tested.finish ticket (.matched bindings true)
          else (tested, [])
      | _ => (engine, [])

/-- The deadline of a state has come: a timer and a held absence match, a time bound fails. -/
def expire (engine : Engine) (ticket : Ticket) : Engine × List Task :=
  match engine.states.get? ticket with
  | none => (engine, [])
  | some state =>
      match state.progress with
      | .timer _ => engine.finish ticket (.matched state.bindings true)
      | .within _ _ (some bindings) => engine.finish ticket (.matched bindings true)
      | .within _ _ none => engine.finish ticket (.failed true)
      | _ => (engine, [])

/-- Perform one task. -/
def perform (engine : Engine) : Task → Engine × List Task
  | .activate state => engine.activate state
  | .operand owner state =>
      if engine.states.contains owner then engine.activate state
      else (engine.release [state], [])
  | .absence ticket =>
      match engine.states.get? ticket with
      | none => (engine, [])
      | some state => (engine, [reportMatch state ticket state.bindings])
  | .report none _ signal => (engine.conclude signal, [])
  | .report (some receiver) sender signal => engine.receive receiver sender signal
  | .rearm state => engine.rearm state
  | .iterate state => engine.iterate state
  | .offer state event => engine.offer state event
  | .expire state => engine.expire state

/-- Perform the first task; the tasks that it yields come before all others. -/
def step (engine : Engine) : Engine :=
  match engine.agenda with
  | [] => engine
  | task :: rest =>
      let (changed, tasks) := engine.perform task
      { changed with agenda := tasks ++ rest }

/-- Perform tasks until the engine is at rest, at most as many as given. -/
def performTasks (engine : Engine) : Nat → Engine
  | 0 => engine
  | tasks + 1 => if engine.isAtRest then engine else engine.step.performTasks tasks

/-- Perform tasks until the engine is at rest or its patience ends. -/
def settle (engine : Engine) : Engine := engine.performTasks engine.patience

end Engine

end EventQuery
