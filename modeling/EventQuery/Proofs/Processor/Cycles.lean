import EventQuery.Proofs.Processor.Tellings
import EventQuery.Proofs.Statement.CycleCalls

namespace EventQuery

/-!
# Cycles in every run

In every output row, whatever cycle calls a select list has, all of them answer about one list of
edges: those between the two arguments of the first of these calls, for the rows that are held in
the group of the row.
-/

namespace Statement

open Plan

variable {catalog : AggregateCatalog} {spec : StatementSpec} {statement : Statement}
  {store : StateStore} {trace : StoreTrace} {scope : Scope} {first : Segment Expr}

/-- The states of the first cycle call begin with the empty graph. -/
theorem begins_chartsEdges
    {aggregate : AggregateSlot}
    {source target : Node}
    (isFirst :
      statement.plan.aggregates.find? (fun aggregate =>
        aggregate.handler.key == AggregateSupplier.cycleKey) = some aggregate)
    (creates : aggregate.handler.Creates (.edges source target .empty)) :
    statement.plan.Begins statement.id AggregateSupplier.cycleKey
      (AggregateState.ChartsEdges source target) := by
  intro other isOther occasion group state created
  obtain rfl := Option.some.inj (isFirst.symm.trans isOther)
  obtain rfl := Except.ok.inj ((creates occasion statement.id group).symm.trans created)
  exact AggregateState.chartsEdges_empty

/--
The results of a group answer all cycle calls about the edges between the arguments of the first
one, for the rows that the graph of the group holds.
-/
theorem answersCycles_of_readAll
    {source target : Node}
    {group : OpenGroup}
    {row results : Row}
    {values : List Value}
    {occasion : Occasion}
    (reserved : catalog.ReservesCycles)
    (lawful : statement.Lawful store trace)
    (tied : statement.Tied store)
    (sound : store.Sound)
    (areAggregates :
      planCalls scope catalog statement.plan.window.isSome statement.plan.width
        (keptCalls catalog spec) = .ok statement.plan.aggregates)
    (isFirst : (keptCalls catalog spec).find? AggregateSupplier.isCycleCall = some first)
    (areEnds : first.arguments.mapM scope.bind = .ok [source, target])
    (steadySource : source.Steady)
    (steadyTarget : target.Steady)
    (isOpen : group ∈ statement.groups)
    (read : readAll store statement.plan.aggregates group.handles = some results)
    (evaluated :
      Node.evaluateAll (statement.plan.extendRow row results) occasion 0
        (statement.plan.columns.map Column.node) = .ok values) :
    ∃ handle ∈ statement.distinctHandles group.handles, ∃ held,
      store.lookup statement.id group.key AggregateSupplier.cycleKey = some handle ∧
        trace.entered handle.serial = trace.left handle.serial ++ held ∧
          statement.plan.AnswersCycles scope values (keptCalls catalog spec)
            (AggregateState.edgesOf source target held) := by
  have found := tied.found group isOpen
  obtain ⟨_, aggregate, isAggregate, planned⟩ := first_of_planCalls reserved areAggregates isFirst
  obtain ⟨_, _, areEndsToo, creates, isKey, _⟩ :=
    ends_of_planCall reserved (List.find?_some isFirst) planned
  cases areEndsToo.symm.trans areEnds
  -- the graph of the group is found, and it charts the edges of the rows that it holds
  obtain ⟨place, atPlace⟩ := List.getElem?_of_mem (List.mem_of_find?_eq_some isAggregate)
  obtain ⟨handle, _, isHandle⟩ := exists_getElem?_of_forall₂ found atPlace
  obtain ⟨state, isState, _⟩ := get_of_readAll sound found read atPlace
  rw [isKey] at isHandle isState
  obtain ⟨held, isHeld, charts⟩ := lawful _ _
    (AggregateState.kept_chartsEdges steadySource steadyTarget)
    (begins_chartsEdges isAggregate creates) group.key handle state isHandle isState
  have isDistinct := tied.mem_distinctHandles isOpen (List.mem_of_find?_eq_some isAggregate)
    (isKey ▸ isHandle)
  refine ⟨handle, isDistinct, held, isHandle, isHeld, fun call member isCycle => ?_⟩
  obtain ⟨position, other, reads, plannedToo⟩ := reads_of_mem_keptCalls areAggregates member
  obtain ⟨_, _, _, _, sameKey, reading⟩ := ends_of_planCall reserved isCycle plannedToo
  obtain ⟨otherState, isOther, isResult⟩ := get_of_readAll sound found read reads.held
  rw [sameKey] at isOther
  cases isOther.symm.trans isState
  refine ⟨results.get position, shows_of_reads reads evaluated, ?_⟩
  rw [isResult, reading]
  exact AggregateSupplier.answers_of_chartsEdges charts _

end Statement

namespace Processor

variable {schema : Schema} {catalog : AggregateCatalog} {settings : Settings} {patience : Nat}
  {calls : List Call} {call : Call} {output : StatementOutput} {told : OutputRow}

/--
In every run, each output row is made from values of the columns of its plan.  When its select list
has cycle calls, these values answer all of them about one list of edges: those between the
arguments of the first call, for the rows that have entered the graph of the group and have not left
it, at the moment when the row that the output row is made from is the latest that has entered.  The
arguments of the other calls make no difference.
-/
theorem cycle_calls_answer_first
    (reserved : catalog.ReservesCycles)
    (isOutput : output ∈ ((new schema catalog settings patience).performAll calls).outputs call)
    (isTold : told ∈ output.rows) :
    ∃ spec plan scope values,
      .create spec ∈ calls ∧ Plan.ofSpec schema catalog spec = .ok plan ∧
      Plan.planSource schema spec.source = .ok (plan.source, scope) ∧
      told = Fields.ofList ((plan.columns.map Column.name).zip values) ∧
      ∀ first, (Plan.keptCalls catalog spec).find? AggregateSupplier.isCycleCall = some first →
        ∃ source target, first.arguments.mapM scope.bind = .ok [source, target] ∧
          (source.Steady → target.Steady →
            let start := new schema catalog settings patience
            ∃ earlier, earlier <+: (start.performAll calls).storeCalls call ∧
              let journal := start.journal calls ++ earlier
              let trace := StateStore.empty.trace journal
              ∃ row results occasion key handle before held,
                plan.select? row occasion = .ok (some key) ∧
                plan.project (plan.extendRow row results) occasion = .output told ∧
                (StateStore.empty.performAll journal).lookup output.statement key
                  AggregateSupplier.cycleKey = some handle ∧
                trace.entered handle.serial = before ++ [row] ∧
                trace.entered handle.serial = trace.left handle.serial ++ held ∧
                plan.AnswersCycles scope values (Plan.keptCalls catalog spec)
                  (AggregateState.edgesOf source target held)) := by
  obtain ⟨scene, earlier, lawful, isJournal, isPrefix, statement, member, isId, telling, spec,
    created, planned⟩ := told_in_lawful_scene isOutput isTold
  obtain ⟨scope, isSource, areAggregates, _⟩ := Plan.aggregates_of_ofSpec planned
  cases telling with
  | bare row occasion noAggregates shown =>
      obtain ⟨values, _, isRow⟩ := Plan.values_of_project shown
      refine ⟨spec, statement.plan, scope, values, created, planned, isSource, isRow,
        fun first isFirst => ?_⟩
      obtain ⟨_, _, isAggregate, _⟩ := Plan.first_of_planCalls reserved areAggregates isFirst
      rw [noAggregates] at isAggregate
      cases isAggregate
  | @aggregated group key results row occasion selected isOpen isGroup latest read shown =>
      obtain ⟨values, evaluated, isRow⟩ := Plan.values_of_project shown
      refine ⟨spec, statement.plan, scope, values, created, planned, isSource, isRow,
        fun first isFirst => ?_⟩
      obtain ⟨_, _, _, checked⟩ := Plan.first_of_planCalls reserved areAggregates isFirst
      obtain ⟨source, target, areEnds, _⟩ :=
        Plan.ends_of_planCall reserved (List.find?_some isFirst) checked
      refine ⟨source, target, areEnds, fun steadySource steadyTarget => ?_⟩
      obtain ⟨handle, isDistinct, held, isHandle, isHeld, answers⟩ :=
        Statement.answersCycles_of_readAll reserved (lawful.lawful statement member)
          (lawful.tied statement member) lawful.sound areAggregates isFirst areEnds steadySource
          steadyTarget isOpen read evaluated
      obtain ⟨before, isLatest⟩ := latest handle isDistinct
      rw [isId, StateStore.lookup_congr isGroup, lawful.recorded] at isHandle
      rw [isJournal] at isHandle isHeld isLatest
      exact ⟨earlier, isPrefix, row, results, occasion, key, handle, before, held, selected, shown,
        isHandle, isLatest, isHeld, answers⟩

open Plan

/-- The call of a cycle function over the edges between two properties. -/
def cycleCall (function source target : String) : Segment Expr :=
  .call function [.ident source, .ident target] none

theorem deterministic_tripleSchema : tripleSchema.Deterministic :=
  Schema.deterministic_empty.addShape nofun

/-- For a triple of one, one and two, two cycle calls answer about the loop at one. -/
theorem cycle_calls_answer_first_loop :
    let detected := cycleCall "cycledetected" "a" "b"
    let listed := cycleCall "cycleoutput" "b" "c"
    let spec := selectTwo detected listed
    let loop : Event := ⟨.given 0, "Triple", [("a", .int 1), ("b", .int 1), ("c", .int 2)]⟩
    let processor := (new tripleSchema .standard .standard 1).performAll [.create spec]
    ∃ output ∈ processor.outputs (.send loop), ∃ told ∈ output.rows,
      told.map (fun column => column.2.asBool?) = [some true, none] ∧
      ∃ plan scope values source target held,
        ofSpec tripleSchema .standard spec = .ok plan ∧
        told = Fields.ofList ((plan.columns.map Column.name).zip values) ∧
        detected.arguments.mapM scope.bind = .ok [source, target] ∧
        plan.AnswersCycles scope values [detected, listed]
          (AggregateState.edgesOf source target held) := by
  intro detected listed spec loop processor
  let output := (processor.outputs (.send loop)).get ⟨0, by decide +kernel⟩
  let told := output.rows.get ⟨0, by decide +kernel⟩
  have isOutput : output ∈ processor.outputs (.send loop) := List.get_mem _ _
  have isTold : told ∈ output.rows := List.get_mem _ _
  -- both calls are kept, as they have different written forms
  have heads : Expr.headsOfAll spec.selected =
      [detected, .property "a" none, .property "b" none,
        listed, .property "b" none, .property "c" none] := rfl
  have isDetected : AggregateCatalog.standard.calls detected = true := by decide +kernel
  have isListed : AggregateCatalog.standard.calls listed = true := by decide +kernel
  have noCall : ∀ name, AggregateCatalog.standard.calls (.property name none) = false :=
    fun _ => rfl
  have different : Expr.aggregateText detected ≠ Expr.aggregateText listed := by decide +kernel
  have kept : keptCalls .standard spec = [detected, listed] := by
    simp [keptCalls, aggregationCalls, heads, isDetected, isListed, noCall,
      AggregateCatalog.distinctCalls, different]
  have isCycle : AggregateSupplier.isCycleCall detected = true := by decide +kernel
  obtain ⟨other, plan, scope, values, created, planned, isSource, isRow, answers⟩ :=
    cycle_calls_answer_first AggregateCatalog.reservesCycles_standard isOutput isTold
  obtain rfl : other = spec := by simpa using created
  obtain ⟨source, target, areEnds, holding⟩ :=
    answers detected (by rw [kept]; exact List.find?_cons_of_pos isCycle)
  have sameSchema := (steady_planSource deterministic_tripleSchema isSource).1
  have steady : ∀ node ∈ [source, target], node.Steady :=
    forall_of_mapM areEnds fun _ _ => Scope.steady_bind (sameSchema ▸ deterministic_tripleSchema)
  obtain ⟨_, _, _, _, _, _, _, _, held, _, _, _, _, _, answersAll⟩ :=
    holding (steady source List.mem_cons_self) (steady target (by simp))
  rw [kept] at answersAll
  exact ⟨output, isOutput, told, isTold, by decide +kernel, plan, scope, values, source, target,
    held, planned, isRow, areEnds, answersAll⟩

/--
A second cycle call with other arguments does not answer about its own edges: a triple of one, two
and two is a loop at two for it, and where it is selected alone both columns say so, but behind the
first call its column denies it.
-/
theorem not_own_edges :
    let first := cycleCall "cycledetected" "a" "b"
    let second := cycleCall "cycledetected" "b" "c"
    let loop : Event := ⟨.given 0, "Triple", [("a", .int 1), ("b", .int 2), ("c", .int 2)]⟩
    let edges := AggregateState.edgesOf (.access 0 "b" .int) (.access 0 "c" .int) [[.event loop]]
    let columns (spec : StatementSpec) : List (List (List (Option Bool))) :=
      (((new tripleSchema .standard .standard 1).create spec).1.send loop).2.map fun output =>
        output.rows.map fun row => row.map fun column => column.2.asBool?
    (∃ key, EdgeGraph.OnCycle edges key) ∧
      columns (selectTwo second second) = [[[some true, some true]]] ∧
      columns (selectTwo first second) = [[[some false, some false]]] := by
  intro first second loop edges columns
  have isLoop : edges = [(.int 2, .int 2)] := rfl
  refine ⟨⟨(Value.int 2).key, .single ⟨_, isLoop ▸ List.mem_singleton_self _, rfl, rfl⟩⟩, ?_⟩
  exact ⟨by decide +kernel, by decide +kernel⟩

end Processor

end EventQuery
