import EventQuery.Pattern.Pool

namespace EventQuery

/-!
# Indexes of waiting states

An index lists states in the order of their ranks.  A rank is a main part, which is a number of a
node or a point of time, and the number under which the state was created.
-/

/-- The place of a state in an index. -/
structure Rank where
  main : Int
  created : Nat
  deriving DecidableEq, Repr

namespace Rank

/-- Whether one rank stands before another: by the main part, and then by creation. -/
def before (left right : Rank) : Bool :=
  left.main < right.main || (left.main == right.main && left.created < right.created)

end Rank

/-- States in ascending order of their ranks, one for each rank. -/
abbrev StateIndex := List (Rank × Ticket)

namespace StateIndex

/-- Put a state under a rank. -/
def insert (index : StateIndex) (rank : Rank) (state : Ticket) : StateIndex :=
  match index with
  | [] => [(rank, state)]
  | (first, held) :: rest =>
      if rank.before first then (rank, state) :: (first, held) :: rest
      else if rank = first then (rank, state) :: rest
      else (first, held) :: insert rest rank state

/-- Whether a state stands under a rank. -/
def contains (index : StateIndex) (rank : Rank) : Bool :=
  index.any fun entry => entry.1 == rank

/-- Drop the state under a rank. -/
def erase (index : StateIndex) (rank : Rank) : StateIndex :=
  index.filter fun entry => entry.1 != rank

/-- The states whose main part is at most a bound, in order. -/
def upTo (index : StateIndex) (bound : Int) : List Ticket :=
  (index.filter fun entry => entry.1.main ≤ bound).map Prod.snd

end StateIndex

end EventQuery
