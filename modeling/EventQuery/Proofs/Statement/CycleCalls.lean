import EventQuery.Proofs.Aggregate.Cycles
import EventQuery.Proofs.Statement.Calls
import EventQuery.Proofs.Statement.Steady
import EventQuery.Proofs.Store.Laws

namespace EventQuery

/-!
# Calls of cycle functions

All calls of cycle functions in a select list share one state in each group, a graph between the
arguments of the first of these calls.  Each call reads this graph in its own way.

A graph between two ends charts the edges of the rows that it holds, as long as the ends have the
same values when a row enters and when it leaves.  So the functions of cycles answer about these
edges.
-/

/-! ## The law of edges -/

namespace AggregateState

/-- The edges of rows between two ends.  A row with a null end, or with a fault, has no edge. -/
def edgesOf (source target : Node) (rows : List Row) : List (Value × Value) :=
  rows.filterMap fun row => (edge source target row []).toOption.join

/-- A state is a graph between two ends that charts the edges of the rows that it holds. -/
def ChartsEdges (source target : Node) : StateLaw := fun state rows =>
  ∃ graph : EdgeGraph, state = .edges source target graph ∧
    EdgeGraph.Charts graph.vertices (edgesOf source target rows) []

variable {source target : Node} {rows : List Row} {row : Row}

theorem chartsEdges_empty : ChartsEdges source target (.edges source target .empty) [] :=
  ⟨.empty, rfl, .empty⟩

theorem edgesOf_append
    (first second : List Row) :
    edgesOf source target (first ++ second) =
      edgesOf source target first ++ edgesOf source target second :=
  List.filterMap_append

theorem edgesOf_singleton
    (row : Row) :
    edgesOf source target [row] = (edge source target row []).toOption.join.toList := by
  rw [edgesOf, List.filterMap_cons]
  cases (edge source target row []).toOption.join <;> rfl

/-- Graphs between steady ends keep to chart the edges of the rows that they hold. -/
theorem kept_chartsEdges
    (first : source.Steady)
    (second : target.Steady) :
    (ChartsEdges source target).Kept where
  enter := by
    rintro _ rows row occasion ⟨graph, rfl, charts⟩ entered
    rw [enter, Steady.edge first second row occasion []] at entered ⊢
    rw [ChartsEdges, edgesOf_append, edgesOf_singleton]
    rcases evaluated : edge source target row [] with fault | _ | ends
    · rw [evaluated] at entered
      cases entered
    · refine ⟨graph, rfl, ?_⟩
      exact (List.append_nil (edgesOf source target rows)).symm ▸ charts
    · exact ⟨graph.insert ends.1 ends.2, rfl, charts.insert⟩
  refuse := by
    rintro _ rows row occasion fault ⟨graph, rfl, charts⟩ refused
    rw [enter, Steady.edge first second row occasion []] at refused ⊢
    rcases evaluated : edge source target row [] with report | _ | ends
    · exact ⟨graph, rfl, charts⟩
    · rw [evaluated] at refused
      cases refused
    · rw [evaluated] at refused
      cases refused
  leave := by
    rintro _ rows row occasion ⟨graph, rfl, charts⟩
    rw [leave, Steady.edge first second row occasion []]
    rw [← List.singleton_append, edgesOf_append, edgesOf_singleton] at charts
    rcases evaluated : edge source target row [] with fault | _ | ends
    · rw [evaluated] at charts
      exact ⟨graph, rfl, charts⟩
    · rw [evaluated] at charts
      exact ⟨graph, rfl, charts⟩
    · rw [evaluated] at charts
      exact ⟨graph.erase ends.1 ends.2, rfl, charts.erase⟩

end AggregateState

namespace AggregateSupplier

/-- What a cycle function reads from a graph answers about the edges of the rows that it holds. -/
theorem answers_of_chartsEdges
    {source target : Node}
    {state : AggregateState}
    {rows : List Row}
    (charts : AggregateState.ChartsEdges source target state rows)
    (detects : Bool) :
    EdgeGraph.Answers detects (AggregateState.edgesOf source target rows)
      ((if detects then readDetected else readOutput) state) := by
  obtain ⟨graph, rfl, charts⟩ := charts
  cases detects with
  | true =>
      rw [if_pos rfl]
      exact answers_readDetected charts
  | false =>
      rw [if_neg Bool.false_ne_true]
      exact answers_readOutput charts

end AggregateSupplier

/-! ## The shared graph -/

namespace AggregateSupplier

/-- The key of the graph that all cycle functions share. -/
def cycleKey : StateKey := .shared "cycle"

/-- Whether a call is one of a cycle function, whatever the case of its letters. -/
def isCycleCall (call : Segment Expr) : Bool := cycles.names.contains call.name.toLower

/-- Whether a call asks if there is a cycle, and not for the vertices on cycles. -/
def detects (call : Segment Expr) : Bool := call.name.toLower == cycleDetected

theorem toLower_toLower (name : String) : name.toLower.toLower = name.toLower := by
  have each : ∀ letter : Char, letter.toLower.toLower = letter.toLower := by
    intro letter
    unfold Char.toLower
    split <;> grind
  calc
    (name.map Char.toLower).map Char.toLower = name.map (Char.toLower ∘ Char.toLower) :=
      String.map_map
    _ = name.map Char.toLower := congrArg (fun lower => name.map lower) (funext each)

/-- The functions over one argument have states of their own. -/
theorem key_of_accumulators
    {call : AggregateCall}
    {handler : AggregateHandler}
    (outcome : accumulators.handle call = .ok handler) :
    handler.key = .own call.position call.function := by
  simp only [accumulators] at outcome
  split at outcome
  next kind _ =>
      rw [AggregateKind.handle] at outcome
      split at outcome
      next =>
          cases outcome
          rfl
      next =>
          obtain ⟨_, _, outcome⟩ := bind_eq_ok_iff.mp outcome
          split at outcome
          next =>
              cases outcome
              rfl
          next => cases outcome
  next => cases outcome

end AggregateSupplier

/-- Whether cycle functions are those of their supplier, and no other function has their graph. -/
structure AggregateCatalog.ReservesCycles (catalog : AggregateCatalog) : Prop where
  own :
    ∀ {call}, call.function.toLower ∈ AggregateSupplier.cycles.names →
      catalog.handle call = AggregateSupplier.cycles.handle call
  others :
    ∀ {call handler}, catalog.handle call = .ok handler →
      handler.key = AggregateSupplier.cycleKey →
        call.function.toLower ∈ AggregateSupplier.cycles.names

namespace AggregateCatalog

/-- The standard cycle functions are those of their supplier. -/
theorem reservesCycles_standard : standard.ReservesCycles := by
  have inLowerCase : AggregateSupplier.cycles.names.map String.toLower =
      AggregateSupplier.cycles.names := by
    decide +kernel
  constructor
  · intro call isName
    rw [handle, standard, find?_add, inLowerCase, if_pos isName]
  · intro call handler outcome isKey
    rw [handle, standard, find?_add, inLowerCase] at outcome
    by_cases isName : call.function.toLower ∈ AggregateSupplier.cycles.names
    · exact isName
    · rw [if_neg isName, find?_add] at outcome
      split at outcome
      next found isFound =>
          split at isFound
          next =>
              cases isFound
              cases (AggregateSupplier.key_of_accumulators outcome).symm.trans isKey
          next => cases isFound
      next => cases outcome

end AggregateCatalog

namespace Plan

section Checked

variable {catalog : AggregateCatalog} {scope : Scope} {windowed : Bool} {width position : Nat}
  {call : Segment Expr} {handler : AggregateHandler}

/-- A cycle call is checked for a graph between its two arguments, which are bound. -/
theorem ends_of_planCall
    (reserved : catalog.ReservesCycles)
    (isCycle : AggregateSupplier.isCycleCall call = true)
    (planned : planCall scope catalog windowed position call = .ok handler) :
    ∃ source target, call.arguments.mapM scope.bind = .ok [source, target] ∧
      handler.Creates (.edges source target .empty) ∧
      handler.key = AggregateSupplier.cycleKey ∧
      handler.read =
        if AggregateSupplier.detects call then AggregateSupplier.readDetected
        else AggregateSupplier.readOutput := by
  obtain ⟨arguments, areArguments, isHandler⟩ := bind_eq_ok_iff.mp planned
  have isName : call.name.toLower.toLower ∈ AggregateSupplier.cycles.names := by
    rw [AggregateSupplier.toLower_toLower]
    exact List.contains_iff_mem.mp isCycle
  obtain ⟨source, target, creates, named, areEnds, isKey, reads⟩ :=
    AggregateCatalog.creates_cycles ((reserved.own isName).symm.trans isHandler)
  dsimp only at named areEnds reads
  subst areEnds
  rw [named] at areArguments
  refine ⟨source, target, bound_eq_ok_iff.mp areArguments, creates, isKey, ?_⟩
  rw [reads, AggregateSupplier.toLower_toLower]
  rfl

/-- A call is checked for the key of the graph exactly when it is a cycle call. -/
theorem isCycleCall_of_planCall
    (reserved : catalog.ReservesCycles)
    (planned : planCall scope catalog windowed position call = .ok handler) :
    AggregateSupplier.isCycleCall call = (handler.key == AggregateSupplier.cycleKey) := by
  rw [Bool.eq_iff_iff, beq_iff_eq]
  constructor
  · intro isCycle
    obtain ⟨_, _, _, _, isKey, _⟩ := ends_of_planCall reserved isCycle planned
    exact isKey
  · intro isKey
    obtain ⟨arguments, _, isHandler⟩ := bind_eq_ok_iff.mp planned
    have isName := reserved.others isHandler isKey
    dsimp only at isName
    rw [AggregateSupplier.toLower_toLower] at isName
    exact List.contains_iff_mem.mpr isName

/-- Where lists are related one by one, the first items that pass a test are related. -/
theorem find?_of_forall₂
    {Item Other : Type}
    {related : Item → Other → Prop}
    {items : List Item}
    {others : List Other}
    {test : Item → Bool}
    {otherTest : Other → Bool}
    {first : Item}
    (each : List.Forall₂ related items others)
    (agree : ∀ item other, related item other → test item = otherTest other)
    (found : items.find? test = some first) :
    ∃ other, others.find? otherTest = some other ∧ related first other := by
  induction each with
  | nil => cases found
  | @cons item other _ _ isRelated _ inductionHypothesis =>
      rw [List.find?_cons] at found ⊢
      rw [← agree item other isRelated]
      split at found
      next =>
          cases found
          exact ⟨other, rfl, isRelated⟩
      next => exact inductionHypothesis found

/-- The first aggregation with the key of the graph is checked from the first cycle call. -/
theorem first_of_planCalls
    {calls : List (Segment Expr)}
    {aggregates : List AggregateSlot}
    {first : Segment Expr}
    (reserved : catalog.ReservesCycles)
    (areAggregates : planCalls scope catalog windowed width calls = .ok aggregates)
    (isFirst : calls.find? AggregateSupplier.isCycleCall = some first) :
    ∃ position aggregate,
      aggregates.find? (fun aggregate => aggregate.handler.key == AggregateSupplier.cycleKey) =
          some aggregate ∧
        planCall scope catalog windowed position first = .ok aggregate.handler := by
  have each : List.Forall₂ (fun call aggregate => ∃ position,
      planCall scope catalog windowed position call = .ok (AggregateSlot.handler aggregate))
        calls aggregates := by
    rw [← List.zipIdx_map_fst 0 calls, List.forall₂_map_left_iff]
    exact (checkedFrom_of_planCalls areAggregates).imp fun _ _ checked => ⟨_, checked.checked⟩
  obtain ⟨aggregate, isAggregate, position, planned⟩ := find?_of_forall₂ each
    (fun _ _ checked => checked.elim fun _ planned => isCycleCall_of_planCall reserved planned)
    isFirst
  exact ⟨position, aggregate, isAggregate, planned⟩

end Checked

section Columns

variable {plan : Plan} {scope : Scope} {row results : Row} {occasion : Occasion}

/-- Each of several expressions has its value on a row. -/
theorem getElem?_of_evaluateAll
    {nodes : List Node}
    {values : List Value}
    {start position : Nat}
    {node : Node}
    (evaluated : Node.evaluateAll row occasion start nodes = .ok values)
    (isNode : nodes[position]? = some node) :
    ∃ value moment, values[position]? = some value ∧ node.evaluate row moment = .ok value := by
  induction nodes generalizing start position values with
  | nil => cases isNode
  | cons first rest inductionHypothesis =>
      rw [Node.evaluateAll] at evaluated
      obtain ⟨value, isValue, evaluated⟩ := bind_eq_ok_iff.mp evaluated
      obtain ⟨others, areOthers, evaluated⟩ := bind_eq_ok_iff.mp evaluated
      cases evaluated
      rcases position with _ | position
      · cases isNode
        exact ⟨value, _, rfl, isValue⟩
      · rw [List.getElem?_cons_succ] at isNode ⊢
        exact inductionHypothesis areOthers isNode

/-- Whether every column that selects the result of a call alone has a value. -/
def Shows (plan : Plan) (scope : Scope) (values : List Value) (call : Segment Expr)
    (answer : Value) : Prop :=
  ∀ (position : Nat) (column : Column), plan.columns[position]? = some column →
    (selectScope scope plan.aggregates).bind (.chain [call.withIndex none]) = .ok column.node →
      values[position]? = some answer

/-- The aggregation calls of a select list, of those with one written form the first. -/
def keptCalls (catalog : AggregateCatalog) (spec : StatementSpec) : List (Segment Expr) :=
  AggregateCatalog.distinctCalls (aggregationCalls catalog spec)

/-- Each call that is kept reads the aggregation that was checked from it. -/
theorem reads_of_mem_keptCalls
    {catalog : AggregateCatalog}
    {spec : StatementSpec}
    {call : Segment Expr}
    (areAggregates :
      planCalls scope catalog plan.window.isSome plan.width (keptCalls catalog spec) =
        .ok plan.aggregates)
    (member : call ∈ keptCalls catalog spec) :
    ∃ position aggregate, plan.Reads scope (call.withIndex none) position aggregate ∧
      planCall scope catalog plan.window.isSome position call = .ok aggregate.handler := by
  obtain ⟨position, aggregate, held, checked⟩ := checkedFrom_of_mem areAggregates member
  have nodup : (plan.aggregates.map AggregateSlot.text).Nodup := by
    rw [map_text_of_planCalls areAggregates]
    exact AggregateCatalog.nodup_distinctCalls _
  have isCall : call.isCall = true :=
    (Bool.and_eq_true_iff.mp
      (List.mem_filter.mp (AggregateCatalog.mem_of_mem_distinctCalls member)).2).1
  refine ⟨position, aggregate, .of_checked nodup held checked ?_ ?_, checked.checked⟩
  · cases call <;> rfl
  · cases call <;> exact isCall

/-- Whether values answer all cycle calls among some calls about the same edges. -/
def AnswersCycles (plan : Plan) (scope : Scope) (values : List Value)
    (calls : List (Segment Expr)) (edges : List (Value × Value)) : Prop :=
  ∀ call ∈ calls, AggregateSupplier.isCycleCall call = true →
    ∃ answer, plan.Shows scope values call answer ∧
      EdgeGraph.Answers (AggregateSupplier.detects call) edges answer

/-- The columns that select the result of a call alone have the result that the call reads. -/
theorem shows_of_reads
    {call : Segment Expr}
    {position : Nat}
    {aggregate : AggregateSlot}
    {values : List Value}
    (reads : plan.Reads scope (call.withIndex none) position aggregate)
    (evaluated :
      Node.evaluateAll (plan.extendRow row results) occasion 0 (plan.columns.map Column.node) =
        .ok values) :
    plan.Shows scope values call (results.get position) := by
  intro place column atPlace bound
  have isSlot : column.node = .slot aggregate.slot aggregate.handler.returns := by
    rw [reads.bound []] at bound
    cases call <;> exact (Except.ok.inj bound).symm
  have isNode : (plan.columns.map Column.node)[place]? = some column.node := by
    rw [List.getElem?_map, atPlace]
    rfl
  obtain ⟨value, moment, isValue, evaluates⟩ := getElem?_of_evaluateAll evaluated isNode
  rw [isSlot, Node.evaluate, reads.result] at evaluates
  rw [isValue]
  exact congrArg some (Except.ok.inj evaluates).symm

/-- An output row has the values of the columns under their names. -/
theorem values_of_project
    {told : OutputRow}
    (shown : plan.project row occasion = .output told) :
    ∃ values, Node.evaluateAll row (4 :: occasion) 0 (plan.columns.map Column.node) = .ok values ∧
      told = Fields.ofList ((plan.columns.map Column.name).zip values) := by
  rw [project] at shown
  split at shown
  next values evaluated => exact ⟨values, evaluated, (RowResult.output.inj shown).symm⟩
  next => cases shown

end Columns

end Plan

end EventQuery
