import EventQuery.Proofs.Pattern.Index
import EventQuery.Proofs.Pattern.RowLaw
import EventQuery.Proofs.Pattern.Ticket

namespace EventQuery

/-!
# Coherent engines

While a call is in progress an engine is not yet as a caller finds it: states have been created
that do not run yet, and a state that is gone may still be listed by its parent, which hears of it
next.  Coherence is the invariant in the middle of a call.  It is relative to the tickets of states
that do not run yet, to the state that is gone and still listed, called the gap, and to the states
that no state lists, called orphans.  Between calls there is none of the three.
-/

/-- What a state waits for. -/
inductive Wait where
  | nothing
  /-- An event, as filters do. -/
  | event
  /-- A deadline after which it matches, as timers do. -/
  | time (deadline : Int)
  /-- A deadline until which its operand runs. -/
  | bound (deadline : Int)
  deriving DecidableEq

namespace Progress

/-- What a state of a progress waits for. -/
def wait : Progress → Wait
  | .filter => .event
  | .timer deadline => .time deadline
  | .within _ deadline _ => .bound deadline
  | _ => .nothing

end Progress

namespace PatternState

/-- The rank under which a filter waits. -/
def filterRank? (state : PatternState) : Option Rank :=
  match state.progress.wait with
  | .event => some ⟨state.node, state.created⟩
  | _ => none

/-- The rank under which a state with a deadline waits. -/
def deadlineRank? (state : PatternState) : Option Rank :=
  match state.progress.wait with
  | .time deadline => some ⟨deadline, state.created⟩
  | .bound deadline => some ⟨deadline, state.created⟩
  | _ => none

/-- Filters and timers are the leaves that count as partial matches. -/
def isLeaf (state : PatternState) : Bool :=
  match state.progress.wait with
  | .event => true
  | .time _ => true
  | _ => false

end PatternState

namespace Engine

/-- The moment from which on a state runs: states of this call run from the next moment on. -/
def birth (moment horizon created : Nat) : Nat :=
  if created < horizon then moment else moment + 1

/-- A state that is live, or the one that is gone and still listed. -/
def Present
    (engine : Engine)
    (gap : Option (Ticket × PatternState))
    (ticket : Ticket)
    (state : PatternState) : Prop :=
  engine.states.get? ticket = some state ∨ gap = some (ticket, state)

/-- Every live state is in order by itself. -/
structure Kept
    {compiled : CompiledPattern}
    (law : RowLaw compiled)
    (moment horizon : Nat)
    (engine : Engine) : Prop where
  pattern : engine.pattern = compiled
  sound : engine.states.Sound
  horizon_le : horizon ≤ engine.next
  numbered :
    ∀ {ticket : Ticket} {state : PatternState},
      engine.states.get? ticket = some state → state.created < engine.next
  numberedOnce :
    ∀ {first second : Ticket} {state other : PatternState},
      engine.states.get? first = some state → engine.states.get? second = some other →
        state.created = other.created → first = second
  starts :
    ∀ {ticket : Ticket} {state : PatternState},
      engine.states.get? ticket = some state →
        law.start (birth moment horizon state.created) state.node state.bindings
  fits :
    ∀ {ticket : Ticket} {state : PatternState},
      engine.states.get? ticket = some state →
        ∃ node, compiled.nodes[state.node]? = some node ∧
          law.Fits (moment + 1) state.node state.bindings node state.progress
  childrenNodup :
    ∀ {ticket : Ticket} {state : PatternState},
      engine.states.get? ticket = some state → state.progress.children.Nodup
  completed :
    ∀ row ∈ engine.completed,
      law.yield (moment + 1) CompiledPattern.rootNumber compiled.blank row

/-- Parents and children know each other, and the root has no parent. -/
structure Linked
    {compiled : CompiledPattern}
    (law : RowLaw compiled)
    (moment : Nat)
    (engine : Engine)
    (gap : Option (Ticket × PatternState))
    (orphans : List Ticket) : Prop where
  top :
    ∀ {ticket : Ticket} {state : PatternState},
      engine.Present gap ticket state → ticket ∉ orphans → state.parent = none →
        engine.root = some ticket ∧ state.node = CompiledPattern.rootNumber ∧
          state.bindings = compiled.blank
  adopted :
    ∀ {ticket parent : Ticket} {state : PatternState},
      engine.Present gap ticket state → ticket ∉ orphans → state.parent = some parent →
        ∃ owner node, engine.states.get? parent = some owner ∧
          compiled.nodes[owner.node]? = some node ∧
            law.Adopts (moment + 1) owner.node owner.bindings node owner.progress ticket
              state.node state.bindings ∧
              owner.created < state.created
  listed :
    ∀ {parent ticket : Ticket} {owner : PatternState},
      engine.states.get? parent = some owner → ticket ∈ owner.progress.children →
        ticket ∉ orphans ∧
          ∃ state, engine.Present gap ticket state ∧ state.parent = some parent
  rooted :
    ∀ {ticket : Ticket},
      engine.root = some ticket →
        ticket ∉ orphans ∧ ∃ state, engine.Present gap ticket state ∧ state.parent = none
  gapSpent :
    ∀ {ticket : Ticket} {state : PatternState},
      gap = some (ticket, state) → engine.states.Spent ticket ∧ ticket ∉ orphans

/-- The states that are created and do not run yet. -/
structure Starting (engine : Engine) (starting : List Ticket) : Prop where
  nodup : starting.Nodup
  issued : ∀ ticket ∈ starting, engine.states.Issued ticket
  childless :
    ∀ ticket ∈ starting, ∀ {state : PatternState},
      engine.states.get? ticket = some state → state.progress.children = []

/-- An index holds the states that run and have a rank. -/
def Waits
    (states : Pool PatternState)
    (starting : List Ticket)
    (rank? : PatternState → Option Rank)
    (index : StateIndex) : Prop :=
  ∀ (rank : Rank) (ticket : Ticket),
    (rank, ticket) ∈ index ↔
      ticket ∉ starting ∧ ∃ state, states.get? ticket = some state ∧ rank? state = some rank

/-- The indexes hold the waiting states that run, and the leaves among these are counted. -/
structure Indexed (engine : Engine) (starting : List Ticket) : Prop where
  filters : Waits engine.states starting PatternState.filterRank? engine.filters
  deadlines : Waits engine.states starting PatternState.deadlineRank? engine.deadlines
  filtersSorted : engine.filters.Sorted
  deadlinesSorted : engine.deadlines.Sorted
  leaves :
    engine.leaves +
        starting.countP (fun ticket => (engine.states.get? ticket).any PatternState.isLeaf) =
      engine.states.count PatternState.isLeaf

/-- The invariant of an engine in the middle of a call. -/
structure Coherent
    {compiled : CompiledPattern}
    (law : RowLaw compiled)
    (moment horizon : Nat)
    (engine : Engine)
    (starting : List Ticket)
    (gap : Option (Ticket × PatternState))
    (orphans : List Ticket) : Prop where
  kept : engine.Kept law moment horizon
  linked : engine.Linked law moment gap orphans
  fresh : engine.Starting starting
  indexed : engine.Indexed starting

section Basics

variable {compiled : CompiledPattern} {law : RowLaw compiled} {moment horizon : Nat}
  {engine : Engine} {starting : List Ticket} {gap : Option (Ticket × PatternState)}
  {orphans : List Ticket}

theorem Linked.present_unique
    (linked : engine.Linked law moment gap orphans)
    {ticket : Ticket}
    {first second : PatternState}
    (isFirst : engine.Present gap ticket first)
    (isSecond : engine.Present gap ticket second) :
    first = second := by
  rcases isFirst with live | gone
  · rcases isSecond with sameLive | gone
    · exact Option.some.inj (live.symm.trans sameLive)
    · rw [(linked.gapSpent gone).1.get?_eq_none] at live
      cases live
  · rcases isSecond with live | sameGone
    · rw [(linked.gapSpent gone).1.get?_eq_none] at live
      cases live
    · have same := gone.symm.trans sameGone
      cases same
      rfl

theorem Linked.issued_of_present
    (linked : engine.Linked law moment gap orphans)
    {ticket : Ticket}
    {state : PatternState}
    (present : engine.Present gap ticket state) :
    engine.states.Issued ticket := by
  rcases present with live | gone
  · exact .inl ⟨state, live⟩
  · exact .inr (linked.gapSpent gone).1

theorem Kept.starts_next
    (kept : engine.Kept law moment horizon)
    {ticket : Ticket}
    {state : PatternState}
    (live : engine.states.get? ticket = some state) :
    law.start (moment + 1) state.node state.bindings := by
  refine law.start_mono ?_ (kept.starts live)
  unfold birth
  split <;> omega

end Basics

end Engine

end EventQuery
