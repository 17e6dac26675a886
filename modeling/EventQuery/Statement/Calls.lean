import EventQuery.Aggregate.Function
import EventQuery.Statement.Spec

namespace EventQuery

/-!
# Aggregation calls of a select list

A chain whose first segment calls an aggregation function holds an aggregation call.  The arguments
of such a call hold no further ones.
-/

namespace AggregateCatalog

/-- Whether a segment at the head of a chain is an aggregation call. -/
def calls (catalog : AggregateCatalog) (head : Segment Expr) : Bool :=
  head.isCall && catalog.isAggregate head.name

mutual

/-- The aggregation calls of an expression in order, inside an aggregation call or not. -/
def callsIn (catalog : AggregateCatalog) (inside : Bool) :
    Expr → Except ActivationError (List (Segment Expr))
  | .literal _ => .ok []
  | .wildcard => .ok []
  | .chain [] => .ok []
  | .chain (head :: rest) => do
      let first ←
        if catalog.calls head then do
          if inside then throw (.invalidAggregation head.name .nested)
          let _ ← callsInSegment catalog true head
          pure [head]
        else callsInSegment catalog inside head
      let others ← callsInSegments catalog inside rest
      return first ++ others
  | .binary _ left right => do
      let first ← callsIn catalog inside left
      let second ← callsIn catalog inside right
      return first ++ second
  | .not operand => callsIn catalog inside operand
  | .neg operand => callsIn catalog inside operand

/-- The aggregation calls among the arguments of a segment. -/
def callsInSegment (catalog : AggregateCatalog) (inside : Bool) :
    Segment Expr → Except ActivationError (List (Segment Expr))
  | .property _ _ => .ok []
  | .call _ arguments _ => callsInAll catalog inside arguments

/-- The aggregation calls among the arguments of several segments. -/
def callsInSegments (catalog : AggregateCatalog) (inside : Bool) :
    List (Segment Expr) → Except ActivationError (List (Segment Expr))
  | [] => .ok []
  | segment :: rest => do
      let first ← callsInSegment catalog inside segment
      let others ← callsInSegments catalog inside rest
      return first ++ others

/-- The aggregation calls of several expressions. -/
def callsInAll (catalog : AggregateCatalog) (inside : Bool) :
    List Expr → Except ActivationError (List (Segment Expr))
  | [] => .ok []
  | expr :: rest => do
      let first ← callsIn catalog inside expr
      let others ← callsInAll catalog inside rest
      return first ++ others

end

/-- Of calls with one text only the first is kept. -/
def distinctCalls (calls : List (Segment Expr)) : List (Segment Expr) :=
  calls.foldl
    (fun kept call =>
      if kept.any fun other => Expr.aggregateText other == Expr.aggregateText call then kept
      else kept ++ [call])
    []

end AggregateCatalog

end EventQuery
