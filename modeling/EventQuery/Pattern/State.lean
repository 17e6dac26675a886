import EventQuery.Pattern.Compile
import EventQuery.Pattern.StateIndex

namespace EventQuery

/-!
# States of a running pattern

Each state runs one node of the pattern for one partial match.  It knows the bindings that it
started with, its parent, and what has come of its operands so far.
-/

/-- What a state reports to its parent. -/
inductive Signal where
  /-- A match with its bindings.  After its last match a state is gone. -/
  | matched (bindings : Row) (isLast : Bool)
  /-- The state cannot match any more and is gone. -/
  | failed (restartable : Bool)

/-- An operand of a conjunction: its state while it runs, and its latest bindings. -/
structure Conjunct where
  state : Option Ticket
  bindings : Option Row

/-- How far the node of a state has come. -/
inductive Progress where
  | filter
  | timer (deadline : Int)
  | every (child : Option Ticket)
  /-- The left operand while it can still match, and one right operand for each of its matches. -/
  | sequence (left : Option Ticket) (rights : List Ticket)
  | alternation (children : List Ticket)
  | conjunction (operands : List Conjunct)
  /-- The number of finished rounds and the bindings collected in them. -/
  | repetition (child : Option Ticket) (rounds : Nat) (collected : Row)
  | negation (child : Option Ticket)
  /-- Over an absence, the bindings with which it holds until now. -/
  | within (child : Option Ticket) (deadline : Int) (held : Option Row)
  | guarded (child : Option Ticket)

namespace Progress

/-- The latest point of time. -/
def lastMoment : Int := Int64.maxValue.toInt

/-- The point of time after a duration, or the latest one. -/
def deadlineAfter (now : Int) (duration : Nat) : Int := min (now + duration) lastMoment

/-- The bindings with an empty sequence at some slots. -/
def withEmptySequences (bindings : Row) (slots : List Nat) : Row :=
  slots.foldl (fun row slot => row.set slot (.array [])) bindings

/-- The progress of a state that has just been created. -/
def initial (now : Int) (bindings : Row) : PatternNode → Progress
  | .filter _ _ _ => filter
  | .timer duration => timer (deadlineAfter now duration)
  | .every _ => every none
  | .sequence _ _ => sequence none []
  | .alternation _ => alternation []
  | .conjunction _ => conjunction []
  | .repetition _ _ _ innerSlots => repetition none 0 (withEmptySequences bindings innerSlots)
  | .negation _ => negation none
  | .within _ duration _ => within none (deadlineAfter now duration) none
  | .guarded _ _ => guarded none

/-- The states of the operands that run. -/
def children : Progress → List Ticket
  | filter => []
  | timer _ => []
  | every child => child.toList
  | sequence left rights => left.toList ++ rights
  | alternation operands => operands
  | conjunction operands => operands.filterMap Conjunct.state
  | repetition child _ _ => child.toList
  | negation child => child.toList
  | within child _ _ => child.toList
  | guarded child => child.toList

/-- The only operand, or the left one of a sequence, starts. -/
def withChild (state : Ticket) : Progress → Progress
  | every _ => every (some state)
  | sequence _ rights => sequence (some state) rights
  | repetition _ rounds collected => repetition (some state) rounds collected
  | negation _ => negation (some state)
  | within _ deadline held => within (some state) deadline held
  | guarded _ => guarded (some state)
  | other => other

/-- The only operand, or the left one of a sequence, is gone. -/
def withoutChild : Progress → Progress
  | every _ => every none
  | sequence _ rights => sequence none rights
  | repetition _ rounds collected => repetition none rounds collected
  | negation _ => negation none
  | within _ deadline held => within none deadline held
  | guarded _ => guarded none
  | other => other

/-- A further right operand of a sequence starts. -/
def withRight (state : Ticket) : Progress → Progress
  | sequence left rights => sequence left (rights ++ [state])
  | other => other

/-- A right operand of a sequence is gone. -/
def withoutRight (state : Ticket) : Progress → Progress
  | sequence left rights => sequence left (rights.filter fun right => right != state)
  | other => other

/-- All operands of an alternation or conjunction start. -/
def withOperands (states : List Ticket) : Progress → Progress
  | alternation _ => alternation states
  | conjunction _ => conjunction (states.map fun state => ⟨some state, none⟩)
  | other => other

end Progress

namespace Conjunct

/-- The first operand that runs in a state takes the bindings of its match. -/
def record (operands : List Conjunct) (state : Ticket) (bindings : Row) (isLast : Bool) :
    List Conjunct :=
  match operands with
  | [] => []
  | first :: rest =>
      if first.state = some state then
        ⟨if isLast then none else first.state, some bindings⟩ :: rest
      else first :: record rest state bindings isLast

/-- The bindings of all operands over the ones at the start: the first operand that binds a slot
decides its value. -/
def merge (start : Row) (operands : List Conjunct) : Row :=
  (operands.filterMap Conjunct.bindings).foldl
    (fun merged bindings =>
      merged.mapIdx fun slot value => if value.isNull then Row.get bindings slot else value)
    start

end Conjunct

/-- One node at work on one partial match. -/
structure PatternState where
  node : Nat
  parent : Option Ticket
  /-- The number under which the state was created. -/
  created : Nat
  /-- The bindings with which the state started. -/
  bindings : Row
  progress : Progress

namespace PatternState

/-- The state after its progress has changed. -/
def advance (state : PatternState) (change : Progress → Progress) : PatternState :=
  { state with progress := change state.progress }

end PatternState

end EventQuery
