import EventQuery.Proofs.Binding.Steady
import EventQuery.Statement.Run

namespace EventQuery

/-!
# Steady plans

A plan is steady when its expressions and the states of its aggregations do the same on every
occasion.  Over a schema with deterministic methods and functions, every plan with deterministic
aggregation functions is steady, and all functions of the standard catalog are deterministic.
-/

namespace AggregateState

/-- Whether a state takes rows in and out in the same way on every occasion. -/
def Steady : AggregateState → Prop
  | accumulator argument _ => ∀ node ∈ argument, node.Steady
  | edges source target _ => source.Steady ∧ target.Steady
  | custom held =>
      (∀ occasion other, held.enter occasion = held.enter other) ∧
        ∀ occasion other, held.leave occasion = held.leave other

namespace Steady

variable {state : AggregateState}

theorem input
    {argument : Option Node}
    (steady : ∀ node ∈ argument, node.Steady)
    (row : Row)
    (occasion other : Occasion) :
    AggregateState.input argument row occasion = AggregateState.input argument row other := by
  cases argument with
  | none => rfl
  | some node =>
      rw [AggregateState.input, AggregateState.input, steady node rfl row occasion other]

theorem edge
    {source target : Node}
    (first : source.Steady)
    (second : target.Steady)
    (row : Row)
    (occasion other : Occasion) :
    AggregateState.edge source target row occasion =
      AggregateState.edge source target row other := by
  rw [AggregateState.edge, AggregateState.edge, first row (0 :: occasion) (0 :: other),
    second row (1 :: occasion) (1 :: other)]

/-- A row enters a steady state in the same way on every occasion. -/
theorem enter
    (steady : state.Steady)
    (row : Row)
    (occasion other : Occasion) :
    state.enter row occasion = state.enter row other := by
  cases state with
  | accumulator argument held =>
      rw [AggregateState.enter, AggregateState.enter, input steady row occasion other]
  | edges source target graph =>
      rw [AggregateState.enter, AggregateState.enter, edge steady.1 steady.2 row occasion other]
  | custom held => rw [AggregateState.enter, AggregateState.enter, steady.1 occasion other]

theorem leave
    (steady : state.Steady)
    (row : Row)
    (occasion other : Occasion) :
    state.leave row occasion = state.leave row other := by
  cases state with
  | accumulator argument held =>
      rw [AggregateState.leave, AggregateState.leave, input steady row occasion other]
  | edges source target graph =>
      rw [AggregateState.leave, AggregateState.leave, edge steady.1 steady.2 row occasion other]
  | custom held => rw [AggregateState.leave, AggregateState.leave, steady.2 occasion other]

/-- Whatever an accumulator makes of its argument, it keeps the argument. -/
theorem whole_accumulator
    {argument : Option Node}
    {held : Accumulator}
    (steady : (accumulator argument held).Steady)
    (given : Except Fault (Option Value))
    (change : Option Value → Except Fault Accumulator) :
    ((accumulator argument held).whole do
      let value ← given
      return .accumulator argument (← change value)).1.Steady := by
  rcases given with fault | value
  · exact steady
  · change ((accumulator argument held).whole
      (change value >>= fun changed => .ok (.accumulator argument changed))).1.Steady
    rcases change value with fault | changed <;> exact steady

/-- Whatever a graph makes of an edge, it keeps the ends. -/
theorem whole_edges
    {source target : Node}
    {graph : EdgeGraph}
    (steady : (edges source target graph).Steady)
    (given : Except Fault (Option (Value × Value)))
    (change : Value → Value → EdgeGraph) :
    ((edges source target graph).whole do
      match ← given with
      | some (first, second) => return .edges source target (change first second)
      | none => return .edges source target graph).1.Steady := by
  rcases given with fault | _ | ends <;> exact steady

/-- A state stays steady when a row enters. -/
theorem after_enter
    (steady : state.Steady)
    (row : Row)
    (occasion : Occasion) :
    (state.enter row occasion).1.Steady := by
  cases state with
  | accumulator argument held => exact whole_accumulator steady _ _
  | edges source target graph => exact whole_edges steady _ _
  | custom held => exact steady

/-- A state stays steady when a row leaves. -/
theorem after_leave
    (steady : state.Steady)
    (row : Row)
    (occasion : Occasion) :
    (state.leave row occasion).1.Steady := by
  cases state with
  | accumulator argument held => exact whole_accumulator steady _ _
  | edges source target graph => exact whole_edges steady _ _
  | custom held => exact steady

end Steady

end AggregateState

/-- Whether a function creates steady states, and the same ones on every occasion. -/
structure AggregateHandler.Steady (handler : AggregateHandler) : Prop where
  create :
    ∀ occasion other statement group,
      handler.create occasion statement group = handler.create other statement group
  created :
    ∀ {occasion statement group state},
      handler.create occasion statement group = .ok state → state.Steady

/-- Whether a function creates a state whenever it is asked for one. -/
def AggregateHandler.Unfailing (handler : AggregateHandler) : Prop :=
  ∀ occasion statement group, ∃ state, handler.create occasion statement group = .ok state

/-- Whether a function creates the same state whenever it is asked for one. -/
def AggregateHandler.Creates (handler : AggregateHandler) (state : AggregateState) : Prop :=
  ∀ occasion statement group, handler.create occasion statement group = .ok state

namespace AggregateHandler.Creates

variable {handler : AggregateHandler} {state : AggregateState}

theorem unfailing (creates : handler.Creates state) : handler.Unfailing :=
  fun occasion statement group => ⟨state, creates occasion statement group⟩

theorem steady
    (creates : handler.Creates state)
    (steady : state.Steady) :
    handler.Steady where
  create := fun _ _ _ _ => (creates _ _ _).trans (creates _ _ _).symm
  created := fun created => by
    rw [creates] at created
    cases created
    exact steady

end AggregateHandler.Creates

/-- Whether all functions that are called with steady arguments create steady states. -/
def AggregateCatalog.Deterministic (catalog : AggregateCatalog) : Prop :=
  ∀ call handler, (∀ node ∈ call.arguments, node.Steady) → catalog.handle call = .ok handler →
    handler.Steady

namespace AggregateCatalog

variable {catalog : AggregateCatalog} {supplier : AggregateSupplier}

/-- A function of a catalog is from the supplier that was added last, or it was there before. -/
theorem find?_add
    {name : String} :
    (catalog.add supplier).find? name =
      if name.toLower ∈ supplier.names.map String.toLower then some supplier
      else catalog.find? name := by
  have all : ∀ (names : List String) (suppliers : Fields AggregateSupplier),
      (names.foldl (fun suppliers name => suppliers.put name.toLower supplier) suppliers).find?
          name.toLower =
        if name.toLower ∈ names.map String.toLower then some supplier
        else suppliers.find? name.toLower := by
    intro names
    induction names with
    | nil => exact fun _ => rfl
    | cons first rest inductionHypothesis =>
        intro suppliers
        rw [List.foldl_cons, inductionHypothesis, Table.find?_put]
        by_cases inRest : name.toLower ∈ rest.map String.toLower
        · rw [if_pos inRest, List.map_cons, if_pos (List.mem_cons_of_mem _ inRest)]
        · simp only [List.map_cons, List.mem_cons, inRest, if_false, or_false, beq_iff_eq]
          exact if_congr eq_comm rfl rfl
  exact all supplier.names catalog.suppliers

theorem handle_add
    {call : AggregateCall}
    {handler : AggregateHandler}
    (outcome : (catalog.add supplier).handle call = .ok handler) :
    supplier.handle call = .ok handler ∨ catalog.handle call = .ok handler := by
  rw [handle, find?_add] at outcome
  by_cases isName : call.function.toLower ∈ supplier.names.map String.toLower
  · rw [if_pos isName] at outcome
    exact .inl outcome
  · rw [if_neg isName] at outcome
    rw [handle]
    split at outcome
    next => exact .inr outcome
    next => cases outcome

theorem mem_of_onlyArgument
    {call : AggregateCall}
    {argument : Node}
    (outcome : call.onlyArgument = .ok argument) :
    argument ∈ call.arguments := by
  rw [AggregateCall.onlyArgument] at outcome
  split at outcome
  next => cases outcome
  next =>
      split at outcome
      next only =>
          cases outcome
          rw [only]
          exact List.mem_singleton_self argument
      next => cases outcome

theorem arguments_of_bothArguments
    {call : AggregateCall}
    {source target : Node}
    (outcome : call.bothArguments = .ok (source, target)) :
    call.wildcard = false ∧ call.arguments = [source, target] := by
  rw [AggregateCall.bothArguments] at outcome
  split at outcome
  next => cases outcome
  next named =>
      refine ⟨Bool.not_eq_true _ ▸ named, ?_⟩
      split at outcome
      next both =>
          cases outcome
          exact both
      next => cases outcome

/-- A function over one argument always begins with the empty accumulator of its argument. -/
theorem creates_accumulators
    {call : AggregateCall}
    {handler : AggregateHandler}
    (outcome : AggregateSupplier.accumulators.handle call = .ok handler) :
    ∃ argument held, handler.Creates (.accumulator argument held) ∧
      ∀ node ∈ argument, node ∈ call.arguments := by
  simp only [AggregateSupplier.accumulators] at outcome
  split at outcome
  next kind _ =>
      rw [AggregateKind.handle] at outcome
      split at outcome
      next =>
          cases outcome
          exact ⟨none, _, fun _ _ _ => rfl, nofun⟩
      next =>
          obtain ⟨argument, isArgument, outcome⟩ := bind_eq_ok_iff.mp outcome
          split at outcome
          next =>
              cases outcome
              refine ⟨some argument, _, fun _ _ _ => rfl, fun node same => ?_⟩
              cases same
              exact mem_of_onlyArgument isArgument
          next => cases outcome
  next => cases outcome

/-- A function over edges begins with the empty graph between its arguments, and reads a graph. -/
theorem creates_cycles
    {call : AggregateCall}
    {handler : AggregateHandler}
    (outcome : AggregateSupplier.cycles.handle call = .ok handler) :
    ∃ source target, handler.Creates (.edges source target .empty) ∧
      call.wildcard = false ∧ call.arguments = [source, target] ∧
        handler.key = .shared "cycle" ∧
          handler.read =
            if call.function.toLower == AggregateSupplier.cycleDetected then
              AggregateSupplier.readDetected
            else AggregateSupplier.readOutput := by
  obtain ⟨⟨source, target⟩, areEnds, outcome⟩ := bind_eq_ok_iff.mp outcome
  obtain ⟨named, areArguments⟩ := arguments_of_bothArguments areEnds
  dsimp only at outcome
  split at outcome
  next => cases outcome
  next =>
      cases outcome
      exact ⟨source, target, fun _ _ _ => rfl, named, areArguments, rfl, rfl⟩

/-- The standard functions always create the same state, whose expressions are their arguments. -/
theorem creates_standard
    {call : AggregateCall}
    {handler : AggregateHandler}
    (outcome : standard.handle call = .ok handler) :
    ∃ state, handler.Creates state ∧
      ((∀ node ∈ call.arguments, node.Steady) → state.Steady) := by
  rcases handle_add outcome with cycles | outcome
  · obtain ⟨source, target, creates, _, areArguments, _⟩ := creates_cycles cycles
    refine ⟨_, creates, fun steady => ?_⟩
    rw [areArguments] at steady
    exact ⟨steady source List.mem_cons_self, steady target (by simp)⟩
  · rcases handle_add outcome with accumulators | nothing
    · obtain ⟨argument, held, creates, given⟩ := creates_accumulators accumulators
      exact ⟨_, creates, fun steady node isNode => steady node (given node isNode)⟩
    · cases nothing

/-- The standard functions are deterministic. -/
theorem deterministic_standard : standard.Deterministic := by
  intro call handler steady outcome
  obtain ⟨state, creates, isSteady⟩ := creates_standard outcome
  exact creates.steady (isSteady steady)

end AggregateCatalog

/-- Whether all expressions and aggregations of a plan do the same on every occasion. -/
structure Plan.Steady (plan : Plan) : Prop where
  join :
    ∀ {left right outer node}, plan.source = .join left right outer (some node) → node.Steady
  condition : ∀ node ∈ plan.condition, node.Steady
  groupBy : ∀ node ∈ plan.groupBy, node.Steady
  aggregates : ∀ aggregate ∈ plan.aggregates, aggregate.handler.Steady
  columns : ∀ column ∈ plan.columns, column.node.Steady

namespace Plan

namespace Steady

variable {plan : Plan}

/-- A steady plan selects a row for the same group on every occasion. -/
theorem select?
    (steady : plan.Steady)
    (row : Row)
    (occasion other : Occasion) :
    plan.select? row occasion = plan.select? row other := by
  have passes : plan.passes row occasion = plan.passes row other := by
    rw [Plan.passes, Plan.passes]
    rcases condition : plan.condition with _ | node
    · rfl
    · exact (steady.condition node condition).passes row _ _
  have groupOf : plan.groupOf row occasion = plan.groupOf row other := by
    rw [Plan.groupOf, Plan.groupOf, Node.Steady.all steady.groupBy row (1 :: occasion) (1 :: other)]
  rw [Plan.select?, Plan.select?, passes, groupOf]

/-- A steady plan makes the same of a row on every occasion. -/
theorem project
    (steady : plan.Steady)
    (row : Row)
    (occasion other : Occasion) :
    plan.project row occasion = plan.project row other := by
  have columns : ∀ node ∈ plan.columns.map Column.node, node.Steady := by
    intro node member
    obtain ⟨column, isColumn, rfl⟩ := List.mem_map.mp member
    exact steady.columns column isColumn
  rw [Plan.project, Plan.project, Node.Steady.all columns row (4 :: occasion) (4 :: other)]

end Steady

section Binding

variable {schema : Schema} {spec : StatementSpec}

/-- The results of a step over a list are those of its items, one by one. -/
theorem forall₂_of_mapM
    {Problem Item Result : Type}
    {step : Item → Except Problem Result}
    {items : List Item}
    {results : List Result}
    (outcome : items.mapM step = .ok results) :
    List.Forall₂ (fun item result => step item = .ok result) items results := by
  induction items generalizing results with
  | nil =>
      cases outcome
      exact .nil
  | cons item rest inductionHypothesis =>
      rw [List.mapM_cons] at outcome
      obtain ⟨first, isFirst, outcome⟩ := bind_eq_ok_iff.mp outcome
      obtain ⟨others, areOthers, outcome⟩ := bind_eq_ok_iff.mp outcome
      cases outcome
      exact .cons isFirst (inductionHypothesis areOthers)

/-- The results of a step over a list satisfy what each single result does. -/
theorem forall_of_mapM
    {Problem Item Result : Type}
    {step : Item → Except Problem Result}
    {items : List Item}
    {results : List Result}
    {holds : Result → Prop}
    (outcome : items.mapM step = .ok results)
    (each : ∀ item result, step item = .ok result → holds result) :
    ∀ result ∈ results, holds result := by
  have related := forall₂_of_mapM outcome
  clear outcome
  induction related with
  | nil => exact fun _ member => nomatch member
  | cons isResult _ inductionHypothesis =>
      exact List.forall_mem_cons.mpr ⟨each _ _ isResult, inductionHypothesis⟩

theorem bound_eq_ok_iff
    {Result : Type}
    {outcome : Except BindingError Result}
    {result : Result} :
    bound outcome = .ok result ↔ outcome = .ok result := by
  cases outcome <;> simp [bound]

theorem steady_bindCondition?
    {scope : Scope}
    {place : String}
    {expr? : Option Expr}
    {node? : Option Node}
    (deterministic : scope.schema.Deterministic)
    (outcome : bindCondition? scope place expr? = .ok node?) :
    ∀ node ∈ node?, node.Steady := by
  cases expr? with
  | none =>
      cases outcome
      exact nofun
  | some expr =>
      obtain ⟨node, isNode, outcome⟩ := bind_eq_ok_iff.mp outcome
      cases outcome
      intro other same
      cases same
      exact Scope.steady_bindCondition deterministic isNode

/-- The scope of a source has the schema, and the condition of a join is steady. -/
theorem steady_planSource
    {source : Source}
    {planned : PlannedSource × Scope}
    (deterministic : schema.Deterministic)
    (outcome : planSource schema source = .ok planned) :
    planned.2.schema = schema ∧
      ∀ {left right outer node}, planned.1 = .join left right outer (some node) → node.Steady := by
  cases source with
  | stream eventType name window =>
      obtain ⟨_, _, outcome⟩ := bind_eq_ok_iff.mp outcome
      cases outcome
      exact ⟨rfl, nofun⟩
  | pattern pattern =>
      obtain ⟨compiled, _, outcome⟩ := bind_eq_ok_iff.mp outcome
      cases outcome
      refine ⟨?_, nofun⟩
      exact List.foldlRecOn (motive := fun scope : Scope => scope.schema = schema)
        compiled.streams Scope.addStream rfl fun _ same _ _ => same
  | join left right outer condition =>
      obtain ⟨_, _, outcome⟩ := bind_eq_ok_iff.mp outcome
      obtain ⟨_, _, outcome⟩ := bind_eq_ok_iff.mp outcome
      obtain ⟨_, _, outcome⟩ := bind_eq_ok_iff.mp outcome
      obtain ⟨node, isNode, outcome⟩ := bind_eq_ok_iff.mp outcome
      cases outcome
      refine ⟨rfl, fun isJoin => ?_⟩
      cases isJoin
      exact steady_bindCondition? deterministic isNode _ rfl

theorem schema_selectScope
    (scope : Scope)
    (aggregates : List AggregateSlot) :
    (selectScope scope aggregates).schema = scope.schema :=
  List.foldlRecOn (motive := fun selected : Scope => selected.schema = scope.schema)
    aggregates _ rfl fun _ same _ _ => same

theorem steady_planColumns
    {source : PlannedSource}
    {scope : Scope}
    {select : List SelectItem}
    {columns : List Column}
    (deterministic : scope.schema.Deterministic)
    (outcome : planColumns source scope select = .ok columns) :
    ∀ column ∈ columns, column.node.Steady := by
  have all : ∀ column ∈ allColumns source scope, column.node.Steady := by
    intro column member
    cases source with
    | stream eventType window =>
        rw [allColumns] at member
        cases found : scope.schema.eventType? eventType with
        | none => simp [found] at member
        | some shape =>
            simp only [found, Option.map_some, Option.getD_some, List.mem_map] at member
            obtain ⟨_, _, rfl⟩ := member
            exact fun _ _ _ => rfl
    | _ =>
        obtain ⟨_, _, rfl⟩ := List.mem_map.mp member
        exact fun _ _ _ => rfl
  rw [planColumns] at outcome
  split at outcome
  next =>
      cases outcome
      exact all
  next =>
      obtain ⟨items, areItems, outcome⟩ := bind_eq_ok_iff.mp outcome
      cases outcome
      have each : ∀ columns ∈ items, ∀ column ∈ columns, column.node.Steady := by
        refine forall_of_mapM areItems fun item columns isItem => ?_
        cases item with
        | all =>
            cases isItem
            exact all
        | column expr name =>
            obtain ⟨node, isNode, isItem⟩ := bind_eq_ok_iff.mp isItem
            cases isItem
            exact List.forall_mem_singleton.mpr (Scope.steady_bind deterministic isNode)
      intro column member
      obtain ⟨columns, isColumns, inColumns⟩ := List.mem_flatten.mp member
      exact each columns isColumns column inColumns

/-- The aggregations of a plan are functions of the catalog, called with bound arguments. -/
theorem handle_of_planCalls
    {scope : Scope}
    {catalog : AggregateCatalog}
    {windowed : Bool}
    {width : Nat}
    {calls : List (Segment Expr)}
    {aggregates : List AggregateSlot}
    (outcome : planCalls scope catalog windowed width calls = .ok aggregates) :
    ∀ aggregate ∈ aggregates, ∃ call, catalog.handle call = .ok aggregate.handler ∧
      ∀ node ∈ call.arguments, ∃ expr, scope.bind expr = .ok node := by
  refine forall_of_mapM outcome fun (call, position) aggregate planned => ?_
  obtain ⟨handler, isHandler, planned⟩ := bind_eq_ok_iff.mp planned
  cases planned
  rw [planCall] at isHandler
  obtain ⟨arguments, areArguments, isHandler⟩ := bind_eq_ok_iff.mp isHandler
  refine ⟨_, isHandler, ?_⟩
  have given := bound_eq_ok_iff.mp areArguments
  split at given
  next =>
      cases given
      exact fun _ member => nomatch member
  next => exact forall_of_mapM given fun expr _ bound => ⟨expr, bound⟩

theorem handle_of_ofSpec
    {catalog : AggregateCatalog}
    {plan : Plan}
    (outcome : ofSpec schema catalog spec = .ok plan) :
    ∀ aggregate ∈ plan.aggregates, ∃ call, catalog.handle call = .ok aggregate.handler := by
  obtain ⟨_, _, outcome⟩ := bind_eq_ok_iff.mp outcome
  obtain ⟨_, _, outcome⟩ := bind_eq_ok_iff.mp outcome
  obtain ⟨_, _, outcome⟩ := bind_eq_ok_iff.mp outcome
  obtain ⟨_, _, outcome⟩ := bind_eq_ok_iff.mp outcome
  obtain ⟨aggregates, areAggregates, outcome⟩ := bind_eq_ok_iff.mp outcome
  obtain ⟨_, _, outcome⟩ := bind_eq_ok_iff.mp outcome
  cases outcome
  exact fun aggregate member =>
    (handle_of_planCalls areAggregates aggregate member).imp fun _ supplied => supplied.1

/-- Plans over deterministic methods, functions and aggregation functions are steady. -/
theorem steady_ofSpec
    {catalog : AggregateCatalog}
    {plan : Plan}
    (deterministic : schema.Deterministic)
    (supplied : catalog.Deterministic)
    (outcome : ofSpec schema catalog spec = .ok plan) :
    plan.Steady := by
  obtain ⟨⟨source, scope⟩, isSource, outcome⟩ := bind_eq_ok_iff.mp outcome
  obtain ⟨condition, isCondition, outcome⟩ := bind_eq_ok_iff.mp outcome
  obtain ⟨groupBy, isGroupBy, outcome⟩ := bind_eq_ok_iff.mp outcome
  obtain ⟨calls, _, outcome⟩ := bind_eq_ok_iff.mp outcome
  obtain ⟨aggregates, areAggregates, outcome⟩ := bind_eq_ok_iff.mp outcome
  obtain ⟨columns, areColumns, outcome⟩ := bind_eq_ok_iff.mp outcome
  cases outcome
  obtain ⟨rfl, join⟩ := steady_planSource deterministic (bound_eq_ok_iff.mp isSource)
  exact {
    join := join
    condition := steady_bindCondition? deterministic (bound_eq_ok_iff.mp isCondition)
    groupBy :=
      forall_of_mapM (bound_eq_ok_iff.mp isGroupBy) fun _ _ => Scope.steady_bind deterministic
    aggregates := fun aggregate member => by
      obtain ⟨call, isHandler, bound⟩ := handle_of_planCalls areAggregates aggregate member
      refine supplied call _ (fun node isArgument => ?_) isHandler
      exact (bound node isArgument).elim fun _ => Scope.steady_bind deterministic
    columns :=
      steady_planColumns ((schema_selectScope scope aggregates).symm ▸ deterministic)
        (bound_eq_ok_iff.mp areColumns) }

end Binding

end Plan

end EventQuery
