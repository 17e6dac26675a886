import EventQuery.Aggregate.Accumulator
import EventQuery.Aggregate.CycleSearch
import EventQuery.Aggregate.EdgeGraph
import EventQuery.Binding.Node

namespace EventQuery

/-!
# Aggregation states

A state is what the rows of one group have become for one or more aggregation functions.  It knows
the expressions that it takes from a row.  An update that is a fault leaves an accumulator or a graph
as it was; a state that is supplied from outside may have been changed before the fault.
-/

/-- A state of a function that is supplied from outside, with its content and its updates. -/
structure CustomState where
  /-- Tells the states of different functions apart. -/
  kind : String
  content : Value
  enter : Occasion → Row → Value → Value × Option Fault
  leave : Occasion → Row → Value → Value × Option Fault

/-- The state of an aggregation in one group. -/
inductive AggregateState where
  /-- An accumulator over an argument, or over whole rows. -/
  | accumulator (argument : Option Node) (held : Accumulator)
  /-- A graph with an edge for each row. -/
  | edges (source : Node) (target : Node) (graph : EdgeGraph)
  | custom (state : CustomState)

namespace EdgeGraph

/-- For each vertex, whether it lies on a directed cycle. -/
def cyclic (graph : EdgeGraph) : Array Bool := CycleSearch.cyclic graph.successorTable.toArray

/-- Whether the graph has a directed cycle. -/
def hasCycle (graph : EdgeGraph) : Bool := graph.cyclic.any id

/-- The vertices that lie on a directed cycle, in order. -/
def cycleVertices (graph : EdgeGraph) : List Value :=
  ((graph.vertices.zip graph.cyclic.toList).filter Prod.snd).map fun (vertex, _) => vertex.value

end EdgeGraph

namespace AggregateState

/-- The value of the argument on a row, if there is an argument. -/
def input (argument : Option Node) (row : Row) (occasion : Occasion) :
    Except Fault (Option Value) :=
  match argument with
  | none => .ok none
  | some node => do
      let value ← node.evaluate row occasion
      return some value

/-- The edge of a row; a row with a null end has none. -/
def edge (source target : Node) (row : Row) (occasion : Occasion) :
    Except Fault (Option (Value × Value)) := do
  let first ← source.evaluate row (0 :: occasion)
  let second ← target.evaluate row (1 :: occasion)
  return if first.isNull || second.isNull then none else some (first, second)

/-- An update that is made as a whole or, when it is a fault, not at all. -/
def whole (state : AggregateState) : Except Fault AggregateState → AggregateState × Option Fault
  | .ok changed => (changed, none)
  | .error fault => (state, some fault)

/-- A row enters the group. -/
def enter (state : AggregateState) (row : Row) (occasion : Occasion) :
    AggregateState × Option Fault :=
  match state with
  | accumulator argument held =>
      state.whole do
        let value ← input argument row occasion
        return .accumulator argument (← held.enter value)
  | edges source target graph =>
      state.whole do
        match ← edge source target row occasion with
        | some (first, second) => return .edges source target (graph.insert first second)
        | none => return state
  | custom held =>
      let (content, fault) := held.enter occasion row held.content
      (.custom { held with content }, fault)

/-- A row leaves the group. -/
def leave (state : AggregateState) (row : Row) (occasion : Occasion) :
    AggregateState × Option Fault :=
  match state with
  | accumulator argument held =>
      state.whole do
        let value ← input argument row occasion
        return .accumulator argument (← held.leave value)
  | edges source target graph =>
      state.whole do
        match ← edge source target row occasion with
        | some (first, second) => return .edges source target (graph.erase first second)
        | none => return state
  | custom held =>
      let (content, fault) := held.leave occasion row held.content
      (.custom { held with content }, fault)

end AggregateState

end EventQuery
