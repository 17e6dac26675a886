import EventQuery.Expr

namespace EventQuery

/-!
# Patterns

A pattern says which events, in which order and within which time make up a match.  Its leaves are
filters, which wait for one event, and timers, which wait for a time.
-/

/-- One event of a type that a filter waits for. -/
structure FilterSpec where
  /-- The name under which a match holds the event. -/
  tag : Option String
  eventType : String
  predicate : Option Expr
  deriving Repr

/-- A pattern as written.  Lengths of time are in nanoseconds. -/
inductive PatternExpr where
  | filter (spec : FilterSpec)
  /-- Start over after each match. -/
  | every (child : PatternExpr)
  /-- The right pattern starts when the left one has matched. -/
  | sequence (left : PatternExpr) (right : PatternExpr)
  /-- Any one of the children. -/
  | alternation (children : List PatternExpr)
  /-- All children, in any order. -/
  | conjunction (children : List PatternExpr)
  /-- As many matches one after another as the bounds allow. -/
  | repetition (child : PatternExpr) (least : Nat) (most : Option Nat)
  /-- No match of the child. -/
  | negation (child : PatternExpr)
  /-- A match that is complete before the time is over. -/
  | within (child : PatternExpr) (duration : Nat)
  /-- Matches on which the guard holds. -/
  | guarded (child : PatternExpr) (guard : Expr)
  | timer (duration : Nat)
  deriving Repr

namespace PatternExpr

mutual

/-- The number of operators and leaves of a pattern. -/
def size : PatternExpr → Nat
  | .filter _ => 1
  | .every child => size child + 1
  | .sequence left right => size left + size right + 1
  | .alternation children => totalSize children + 1
  | .conjunction children => totalSize children + 1
  | .repetition child _ _ => size child + 1
  | .negation child => size child + 1
  | .within child _ => size child + 1
  | .guarded child _ => size child + 1
  | .timer _ => 1

/-- The number of operators and leaves of several patterns. -/
def totalSize : List PatternExpr → Nat
  | [] => 0
  | child :: rest => size child + totalSize rest

end

/-- Whether a pattern is itself the absence of another. -/
def isNegation : PatternExpr → Bool
  | negation _ => true
  | _ => false

end PatternExpr

end EventQuery
