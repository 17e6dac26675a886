import EventQuery.Aggregate.Store

namespace EventQuery

/-!
# Output of statements

What a statement yields for one event or one point of time: rows, the faults that kept rows back,
and the error that stopped it.
-/

/-- A row of the output: values under the names of the columns. -/
abbrev OutputRow := Fields Value

/-- What a statement yields for one event or point of time. -/
structure StatementOutput where
  statement : StatementId
  name : Option String
  rows : List OutputRow
  faults : List Fault
  error : Option ActivationError

namespace StatementOutput

/-- The output without rows, faults and error. -/
def blank (statement : StatementId) (name : Option String) : StatementOutput :=
  ⟨statement, name, [], [], none⟩

/-- Whether there is nothing to tell. -/
def isBlank (output : StatementOutput) : Bool :=
  output.rows.isEmpty && output.faults.isEmpty && output.error.isNone

/-- The output with one more row. -/
def addRow (output : StatementOutput) (row : OutputRow) : StatementOutput :=
  { output with rows := output.rows ++ [row] }

/-- The output with more faults. -/
def addFaults (output : StatementOutput) (faults : List Fault) : StatementOutput :=
  { output with faults := output.faults ++ faults }

end StatementOutput

end EventQuery
