import EventQuery.Pattern.Expr

namespace EventQuery

/-!
# Statements as written

A statement selects columns from the events of a stream, from the matches of a pattern or from the
pairs of a join, and may filter and group its rows.
-/

/-- One side of a join. -/
structure JoinStream where
  eventType : String
  name : String
  /-- The number of latest events that can be paired; all of them when absent. -/
  window : Option Nat
  deriving DecidableEq, Repr

/-- Where the rows of a statement come from. -/
inductive Source where
  /-- The events of a type.  With a window, aggregations cover that many latest rows. -/
  | stream (eventType : String) (name : Option String) (window : Option Nat)
  | pattern (pattern : PatternExpr)
  /-- The pairs on which the condition holds.  An outer join keeps each left event. -/
  | join (left : JoinStream) (right : JoinStream) (outer : Bool) (condition : Option Expr)
  deriving Repr

/-- One item of a select list. -/
inductive SelectItem where
  /-- All columns of the source. -/
  | all
  | column (expr : Expr) (name : Option String)
  deriving Repr

/-- A statement as written.  An empty select list selects all columns. -/
structure StatementSpec where
  name : Option String
  source : Source
  select : List SelectItem
  condition : Option Expr
  groupBy : List Expr
  deriving Repr

namespace SelectItem

/-- The expression of an item. -/
def expr? : SelectItem → Option Expr
  | all => none
  | column expr _ => some expr

end SelectItem

namespace StatementSpec

/-- The expressions of the select list, in order. -/
def selected (spec : StatementSpec) : List Expr := spec.select.filterMap SelectItem.expr?

end StatementSpec

end EventQuery
