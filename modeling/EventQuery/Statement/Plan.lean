import EventQuery.Pattern.Compile
import EventQuery.Statement.Calls

namespace EventQuery

/-!
# Plans

A plan is a statement with all its expressions bound.  A row of the source has one slot for the
event of a stream, for each tag of a pattern, or for each side of a join.  The results of the
aggregations stand behind them, where only the select list sees them.
-/

/-- One side of a join of which the event type is known to be declared. -/
structure JoinSide where
  eventType : String
  window : Option Nat
  deriving DecidableEq, Repr

/-- Where the rows of a planned statement come from. -/
inductive PlannedSource where
  | stream (eventType : String) (window : Option Nat)
  | pattern (pattern : CompiledPattern)
  | join (left : JoinSide) (right : JoinSide) (outer : Bool) (condition : Option Node)

/-- An aggregation call and the slot of its result. -/
structure AggregateSlot where
  /-- The text by which the select list knows the call. -/
  text : String
  handler : AggregateHandler
  slot : Nat

/-- A column of the output. -/
structure Column where
  name : String
  node : Node

/-- A statement ready to run. -/
structure Plan where
  name : Option String
  source : PlannedSource
  /-- The number of slots of a row of the source. -/
  width : Nat
  aggregates : List AggregateSlot
  condition : Option Node
  groupBy : List Node
  columns : List Column

namespace PlannedSource

/-- The number of slots of a row. -/
def width : PlannedSource → Nat
  | stream _ _ => 1
  | pattern compiled => compiled.width
  | join _ _ _ _ => 2

/-- The number of latest rows that aggregations cover, when there is a bound. -/
def window : PlannedSource → Option Nat
  | stream _ window => window
  | _ => none

end PlannedSource

namespace JoinStream

/-- The side of a planned join. -/
def side (stream : JoinStream) : JoinSide := ⟨stream.eventType, stream.window⟩

end JoinStream

namespace Plan

/-- Whether rows are grouped. -/
def isGrouped (plan : Plan) : Bool := !plan.groupBy.isEmpty

/-- The number of latest rows that aggregations cover, when there is a bound. -/
def window (plan : Plan) : Option Nat := plan.source.window

/-- The positions at which an aggregation has a state that no earlier one has. -/
def distinctPositions (plan : Plan) : List Nat :=
  (plan.aggregates.zipIdx.filter fun (aggregate, position) =>
    !(plan.aggregates.take position).any fun earlier =>
      earlier.handler.key == aggregate.handler.key).map Prod.snd

/-- What is refused while a plan is made is refused as a binding error. -/
def bound {α : Type} : Except BindingError α → Except ActivationError α
  | .ok result => .ok result
  | .error error => .error (.binding error)

/-- A condition that may be absent. -/
def bindCondition? (scope : Scope) (place : String) :
    Option Expr → Except BindingError (Option Node)
  | none => .ok none
  | some expr => do
      let node ← scope.bindCondition place expr
      return some node

/-- The two sides of a join are known by different names. -/
def checkNames (left right : JoinStream) : Except BindingError Unit := do
  if left.name = right.name then
    throw (.typeMismatch "join" "distinct stream aliases" ("'" ++ left.name ++ "' twice"))

/-- The source of a plan, with the scope of its rows. -/
def planSource (schema : Schema) : Source → Except BindingError (PlannedSource × Scope)
  | .stream eventType name window => do
      let _ ← schema.requireEventType eventType
      let scope := (Scope.ofSchema schema).addStream ⟨name.getD eventType, eventType, 0, false⟩
      return (.stream eventType window, scope.withDefault 0)
  | .pattern pattern => do
      let compiled ← CompiledPattern.compile schema pattern
      return (.pattern compiled, compiled.streams.foldl Scope.addStream (.ofSchema schema))
  | .join left right outer condition => do
      let _ ← schema.requireEventType left.eventType
      let _ ← schema.requireEventType right.eventType
      checkNames left right
      let scope := ((Scope.ofSchema schema).addStream ⟨left.name, left.eventType, 0, false⟩)
        |>.addStream ⟨right.name, right.eventType, 1, false⟩
      let node ← bindCondition? scope "join condition" condition
      return (.join left.side right.side outer node, scope)

/-- Check an aggregation call at a position among those of its statement. -/
def planCall (scope : Scope) (catalog : AggregateCatalog) (windowed : Bool) (position : Nat)
    (call : Segment Expr) : Except ActivationError AggregateHandler := do
  let wildcard := match call.arguments with
    | [.wildcard] => true
    | _ => false
  let arguments ← bound (if wildcard then .ok [] else call.arguments.mapM scope.bind)
  catalog.handle ⟨call.name.toLower, arguments, wildcard, windowed, position⟩

/-- Check the aggregation calls of a statement.  Their results follow the slots of the source. -/
def planCalls (scope : Scope) (catalog : AggregateCatalog) (windowed : Bool) (width : Nat)
    (calls : List (Segment Expr)) : Except ActivationError (List AggregateSlot) :=
  calls.zipIdx.mapM fun (call, position) => do
    let handler ← planCall scope catalog windowed position call
    return ⟨Expr.aggregateText call, handler, width + position⟩

/-- The scope of the select list, which sees the results of the aggregations. -/
def selectScope (scope : Scope) (aggregates : List AggregateSlot) : Scope :=
  aggregates.foldl
    (fun scope aggregate =>
      scope.addAggregate aggregate.text aggregate.slot aggregate.handler.returns)
    scope

/--
All columns of a source: the declared properties of a stream, the tags of a pattern, or both sides
of a join.
-/
def allColumns (source : PlannedSource) (scope : Scope) : List Column :=
  match source with
  | .stream eventType _ =>
      ((scope.schema.eventType? eventType).map fun shape =>
        shape.properties.map fun (name, property) =>
          Column.mk name (.access 0 name property.type)).getD []
  | _ => scope.streams.map fun stream => ⟨stream.name, .slot stream.slot stream.slotType⟩

/-- The columns of an item of the select list. -/
def planItem (source : PlannedSource) (scope : Scope) :
    SelectItem → Except BindingError (List Column)
  | .all => .ok (allColumns source scope)
  | .column expr name => do
      let node ← scope.bind expr
      return [⟨name.getD expr.text, node⟩]

/-- The columns of a select list. -/
def planColumns (source : PlannedSource) (scope : Scope) (select : List SelectItem) :
    Except BindingError (List Column) := do
  if select.isEmpty then
    return allColumns source scope
  else
    let columns ← select.mapM (planItem source scope)
    return columns.flatten

/-- Plan a statement. -/
def ofSpec (schema : Schema) (catalog : AggregateCatalog) (spec : StatementSpec) :
    Except ActivationError Plan := do
  let (source, scope) ← bound (planSource schema spec.source)
  let condition ← bound (bindCondition? scope "where clause" spec.condition)
  let groupBy ← bound (spec.groupBy.mapM scope.bind)
  let calls ← catalog.callsInAll false spec.selected
  let aggregates ← planCalls scope catalog source.window.isSome source.width
    (AggregateCatalog.distinctCalls calls)
  let columns ← bound (planColumns source (selectScope scope aggregates) spec.select)
  return { name := spec.name, source, width := source.width, aggregates, condition, groupBy, columns }

end Plan

end EventQuery
