import EventQuery.Statement.Aggregation
import EventQuery.Statement.Output

namespace EventQuery

/-!
# Evaluation of one row

The condition filters a row, the grouping expressions choose its group, the states of the group take
the row in, and the select list yields the output row from the row and the results of the
aggregations.  A fault keeps back this row only; a state that cannot be created stops the statement.
-/

/-- What has become of a row. -/
inductive RowResult where
  | output (row : OutputRow)
  | filtered
  | faulted (fault : Fault)
  /-- A state of the group of the row is gone. -/
  | stateGone

namespace Plan

/-- Whether a row passes the condition, if there is one. -/
def passes (plan : Plan) (row : Row) (occasion : Occasion) : Except Fault Bool :=
  match plan.condition with
  | none => .ok true
  | some node => node.passes row (0 :: occasion)

/-- The group of a row. -/
def groupOf (plan : Plan) (row : Row) (occasion : Occasion) : Except Fault GroupKey := do
  let values ← Node.evaluateAll row (1 :: occasion) 0 plan.groupBy
  return ⟨values⟩

/-- The group of a row that passes the condition. -/
def select? (plan : Plan) (row : Row) (occasion : Occasion) : Except Fault (Option GroupKey) := do
  if ← plan.passes row occasion then
    let group ← plan.groupOf row occasion
    return some group
  else
    return none

/-- The output row.  A repeated column keeps its first place and its last value. -/
def project (plan : Plan) (row : Row) (occasion : Occasion) : RowResult :=
  match Node.evaluateAll row (4 :: occasion) 0 (plan.columns.map Column.node) with
  | .ok values => .output (Fields.ofList ((plan.columns.map Column.name).zip values))
  | .error fault => .faulted fault

/-- The row of a source with the results of the aggregations behind it. -/
def extendRow (plan : Plan) (row results : Row) : Row :=
  (List.range plan.width).map row.get ++ results

end Plan

namespace Statement

/-- A row of a group enters the aggregations, and the output is made from their results. -/
def aggregateRow (statement : Statement) (store : StateStore) (key : GroupKey)
    (handles : List StateHandle) (row : Row) (occasion : Occasion) :
    Statement × StateStore × RowResult :=
  let (grown, entered, fault) :=
    enterAll row (2 :: occasion) store 0 (statement.distinctHandles handles)
  let (slid, shrunk) := statement.slideWindow grown ⟨row, key, entered⟩ (3 :: occasion)
  let touched := slid.touchGroup key
  match fault with
  | some fault => (touched, shrunk, .faulted fault)
  | none =>
      match readAll shrunk statement.plan.aggregates handles with
      | none => (touched, shrunk, .stateGone)
      | some results =>
          (touched, shrunk,
            statement.plan.project (statement.plan.extendRow row results) occasion)

/-- Run one row through a statement. -/
def evaluateRow (statement : Statement) (store : StateStore) (row : Row) (occasion : Occasion) :
    Statement × StateStore × Except ActivationError RowResult :=
  match statement.plan.select? row occasion with
  | .error fault => (statement, store, .ok (.faulted fault))
  | .ok none => (statement, store, .ok .filtered)
  | .ok (some key) =>
      if statement.plan.aggregates.isEmpty then
        (statement, store, .ok (statement.plan.project row occasion))
      else
        match statement.openGroup store key (5 :: occasion) with
        | (opened, obtained, .error error) => (opened, obtained, .error error)
        | (opened, obtained, .ok handles) =>
            let (taken, updated, result) := opened.aggregateRow obtained key handles row occasion
            (taken, updated, .ok result)

/-- What is told of a row. -/
def report (output : StatementOutput) : RowResult → StatementOutput
  | .output row => output.addRow row
  | .filtered => output
  | .faulted fault => output.addFaults [fault]
  | .stateGone => output

/-- Run rows through a statement one after another, up to an error, numbered from a position on. -/
def evaluateRows (occasion : Occasion) (statement : Statement) (store : StateStore)
    (output : StatementOutput) (position : Nat) :
    List Row → Statement × StateStore × StatementOutput
  | [] => (statement, store, output)
  | row :: rest =>
      match statement.evaluateRow store row (position :: occasion) with
      | (changed, updated, .error error) => (changed, updated, { output with error := some error })
      | (changed, updated, .ok result) =>
          evaluateRows occasion changed updated (report output result) (position + 1) rest

end Statement

end EventQuery
