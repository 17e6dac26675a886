import EventQuery.Proofs.Processor.Coverage
import EventQuery.Proofs.Processor.Isolation
import EventQuery.Proofs.Processor.Windows
import EventQuery.Proofs.Statement.Lawful
import EventQuery.Proofs.Statement.Tells

namespace EventQuery

/-!
# Where output rows come from

Each output row of a call is told by a statement that was there before the call.  The statement has
the plan of a specification that it was created from, and it tells the row in a lawful scene that
the processor comes through in the course of the call.

In every run, between any two moves of statements, all states obey the laws that they begin with and
that updates keep: each state is what a law says for the rows that have entered it and have not left
it.
-/

/-! ## Lawful states in every run -/

namespace Scene

/-- All states obey the laws that they begin with, and all windows are in step with them. -/
structure Lawful (scene : Scene) : Prop extends InStep scene where
  lawful :
    ∀ statement ∈ scene.statements,
      statement.Lawful scene.store (StateStore.empty.trace scene.journal)

namespace Lawful

variable {scene next : Scene}

theorem empty : Scene.empty.Lawful where
  toInStep := .empty
  lawful := fun _ member => nomatch member

theorem moved
    {before after : List Statement}
    {statement changed : Statement}
    {store left : StateStore}
    {journal calls : List StoreCall}
    {nextId : StatementId}
    (lawful : Lawful ⟨before ++ statement :: after, store, journal, nextId⟩)
    (move : Statement.Move statement store calls changed left) :
    Lawful ⟨before ++ changed :: after, left, journal ++ calls, nextId⟩ := by
  have sound : store.Sound := lawful.sound
  have isMember : statement ∈ before ++ statement :: after := by simp
  have tied : statement.Tied store := lawful.tied statement isMember
  have isStore : store = StateStore.empty.performAll journal := lawful.recorded
  have traced : StateStore.empty.trace (journal ++ calls) =
      StateStore.empty.trace journal ++ store.trace calls := by
    rw [StateStore.trace_append, ← isStore]
  have inStep := lawful.toInStep.moved move
  have ordered : (StateStore.empty.trace journal ++ store.trace calls).FirstInFirstOut :=
    traced ▸ inStep.ordered
  refine ⟨inStep, fun other member => ?_⟩
  rw [traced]
  rcases lawful.toNumbered.mem_moved member with rfl | ⟨isOther, different⟩
  · exact (lawful.lawful statement isMember).move tied sound lawful.fresh ordered move
  · exact (lawful.lawful other isOther).move_other tied sound different move

/-- Every step keeps all states lawful. -/
theorem step
    (lawful : scene.Lawful)
    (step : Step scene next) :
    next.Lawful := by
  have inStep := lawful.toInStep.step step
  cases step with
  | moved move => exact lawful.moved move
  | @born statements store journal nextId plan settings patience now =>
      refine ⟨inStep, fun statement member => ?_⟩
      rcases List.mem_append.mp member with isOld | isNew
      · exact lawful.lawful statement isOld
      · rw [List.mem_singleton.mp isNew]
        exact .of_nothing (lawful.toAgrees.lookup_of_unused (Nat.le_refl nextId))
  | removed ended =>
      refine ⟨inStep, fun statement member => lawful.lawful statement ?_⟩
      rw [List.mem_append] at member
      rw [List.mem_append, List.mem_cons]
      tauto

theorem steps
    (lawful : scene.Lawful)
    (steps : Steps scene next) :
    next.Lawful := by
  induction steps with
  | refl => exact lawful
  | tail _ step inductionHypothesis => exact inductionHypothesis.step step

end Lawful

end Scene

/-- In every run all states are lawful. -/
theorem Processor.lawful_sceneAfter
    (schema : Schema)
    (catalog : AggregateCatalog)
    (settings : Settings)
    (patience : Nat)
    (calls : List Call) :
    (sceneAfter schema catalog settings patience calls).Lawful :=
  Scene.Lawful.empty.steps (steps_sceneAfter schema catalog settings patience calls)

/-! ## Rows that are told -/

namespace Scene

/-- Each output row of some turns is told in a scene that the turns come through. -/
theorem exists_telling_of_turns
    {turn : Statement → StateStore → Statement × StateStore × StatementOutput}
    {asked : Statement → StateStore → List StoreCall}
    (moves : ∀ statement store,
      Statement.Moves statement store (asked statement store) (turn statement store).1
        (turn statement store).2.1)
    (owns : ∀ statement store, (turn statement store).2.2.statement = statement.id)
    (tells : ∀ statement store, ∀ told ∈ (turn statement store).2.2.rows,
      statement.ComesToTell store (asked statement store) told)
    (before : List Statement)
    {statements : List Statement}
    {store : StateStore}
    (journal : List StoreCall)
    (nextId : StatementId)
    {output : StatementOutput}
    {told : OutputRow}
    (isOutput : output ∈ (Processor.takeTurns turn store statements).2.2)
    (isTold : told ∈ output.rows) :
    ∃ scene earlier, Steps ⟨before ++ statements, store, journal, nextId⟩ scene ∧
      scene.journal = journal ++ earlier ∧
      earlier <+: Processor.turnCalls turn asked store statements ∧
      ∃ statement ∈ scene.statements,
        statement.id = output.statement ∧
          statement.Tells scene.store (store.trace earlier) told ∧
            ∃ original ∈ statements, statement.plan = original.plan := by
  induction statements generalizing before store journal with
  | nil => cases isOutput
  | cons statement rest inductionHypothesis =>
      rcases Processor.mem_outputs_takeTurns isOutput with rfl | later
      · obtain ⟨earlier, others, middle, held, isAsked, further, telling⟩ :=
          tells statement store told isTold
        refine ⟨_, earlier, Steps.of_moves further before rest journal nextId, rfl, ?_, middle,
          by simp, further.same.1.trans (owns statement store).symm, telling, statement,
          List.mem_cons_self, further.same.2⟩
        rw [Processor.turnCalls, isAsked, List.append_assoc]
        exact List.prefix_append _ _
      · have first := Steps.of_moves (moves statement store) before rest journal nextId
        obtain ⟨scene, earlier, steps, isJournal, isPrefix, teller, member, isId, telling, original,
          isOriginal, samePlan⟩ := inductionHypothesis (before ++ [(turn statement store).1])
            (journal ++ asked statement store) later
        rw [List.append_assoc] at steps
        refine ⟨scene, asked statement store ++ earlier, first.trans steps, ?_, ?_, teller, member,
          isId, ?_, original, List.mem_cons_of_mem _ isOriginal, samePlan⟩
        · rw [isJournal, List.append_assoc]
        · rw [Processor.turnCalls, List.prefix_append_right_inj]
          exact isPrefix
        · rw [StateStore.trace_append, ← (moves statement store).performed]
          exact telling.after _

/-- Each output row of a call is told in a scene that the call comes through. -/
theorem exists_telling
    {processor : Processor}
    {call : Processor.Call}
    {output : StatementOutput}
    {told : OutputRow}
    (isOutput : output ∈ processor.outputs call)
    (isTold : told ∈ output.rows)
    (journal : List StoreCall) :
    ∃ scene earlier, Steps (processor.scene journal) scene ∧
      scene.journal = journal ++ earlier ∧
      earlier <+: processor.storeCalls call ∧
      ∃ statement ∈ scene.statements,
        statement.id = output.statement ∧
          statement.Tells scene.store (processor.store.trace earlier) told ∧
            ∃ original ∈ processor.statements, statement.plan = original.plan := by
  cases call with
  | create spec => cases isOutput
  | destroy id => cases isOutput
  | send event =>
      exact exists_telling_of_turns
        (fun statement store => statement.moves_send store event _)
        (fun statement store => (statement.told_send store event _).1)
        (fun statement store told => Statement.tells_of_send) [] journal processor.nextId isOutput
        isTold
  | advanceTime now =>
      rw [Processor.outputs, Processor.advanceTime] at isOutput
      rw [Processor.storeCalls]
      split at isOutput
      next => cases isOutput
      next late =>
          rw [if_neg late]
          exact exists_telling_of_turns
            (fun statement store => statement.moves_advanceTime store now _)
            (fun statement store => (statement.told_advanceTime store now _).1)
            (fun statement store told => Statement.tells_of_advanceTime) [] journal
            processor.nextId isOutput isTold

end Scene

namespace Processor

variable {processor : Processor} {statement : Statement}

/-- A statement after a call has the plan of one of before, or of what it was created from. -/
theorem plan_of_mem_perform
    {call : Call}
    (member : statement ∈ (processor.perform call).statements) :
    (∃ original ∈ processor.statements, statement.plan = original.plan) ∨
      ∃ spec, call = .create spec ∧
        Plan.ofSpec processor.schema processor.catalog spec = .ok statement.plan := by
  have turned : ∀ {turn : Statement → StateStore → Statement × StateStore × StatementOutput},
      (∀ original held, (turn original held).1.plan = original.plan) →
        statement ∈ (takeTurns turn processor.store processor.statements).1 →
          ∃ original ∈ processor.statements, statement.plan = original.plan := by
    intro turn keeps isTurned
    obtain ⟨original, isOriginal, held, rfl⟩ := mem_takeTurns isTurned
    exact ⟨original, isOriginal, keeps original held⟩
  cases call with
  | create spec =>
      rw [perform, create] at member
      rcases planned : Plan.ofSpec processor.schema processor.catalog spec with error | plan
      · rw [planned] at member
        exact .inl ⟨statement, member, rfl⟩
      · rcases activating : Statement.activate processor.nextId plan processor.store
          processor.settings processor.patience processor.now with ⟨left, error | active⟩
        · simp only [planned, activating] at member
          exact .inl ⟨statement, member, rfl⟩
        · simp only [planned, activating] at member
          rcases List.mem_append.mp member with isOld | isNew
          · exact .inl ⟨statement, isOld, rfl⟩
          · obtain rfl := List.mem_singleton.mp isNew
            obtain ⟨groups, rfl⟩ := Statement.activate_eq_ok activating
            exact .inr ⟨spec, rfl, planned⟩
  | destroy id =>
      rw [perform, destroy] at member
      split at member
      next => exact .inl ⟨statement, member, rfl⟩
      next => exact .inl ⟨statement, (List.mem_filter.mp member).1, rfl⟩
  | send event =>
      exact .inl (turned (fun original held => (original.moves_send held event _).same.2) member)
  | advanceTime now =>
      rw [perform, advanceTime] at member
      split at member
      next => exact .inl ⟨statement, member, rfl⟩
      next =>
          exact .inl (turned (fun original held => (original.moves_advanceTime held now _).same.2)
            member)

/-- A statement after some calls has the plan of one of before, or of what it was created from. -/
theorem plan_of_mem_performAll
    {calls : List Call}
    (member : statement ∈ (processor.performAll calls).statements) :
    (∃ original ∈ processor.statements, statement.plan = original.plan) ∨
      ∃ spec, .create spec ∈ calls ∧
        Plan.ofSpec processor.schema processor.catalog spec = .ok statement.plan := by
  induction calls generalizing processor with
  | nil => exact .inl ⟨statement, member, rfl⟩
  | cons call rest inductionHypothesis =>
      obtain ⟨sameSchema, sameCatalog⟩ := supply_performAll processor [call]
      rcases inductionHypothesis member with ⟨middle, isMiddle, samePlan⟩ | ⟨spec, created, planned⟩
      · rw [samePlan]
        rcases plan_of_mem_perform isMiddle with before | ⟨spec, rfl, planned⟩
        · exact .inl before
        · exact .inr ⟨spec, List.mem_cons_self, planned⟩
      · refine .inr ⟨spec, List.mem_cons_of_mem _ created, ?_⟩
        change (processor.perform call).schema = _ at sameSchema
        change (processor.perform call).catalog = _ at sameCatalog
        rw [← sameSchema, ← sameCatalog]
        exact planned

/--
In every run, each output row of a call is told in a lawful scene in the course of the call, by a
statement that was created from a specification.
-/
theorem told_in_lawful_scene
    {schema : Schema}
    {catalog : AggregateCatalog}
    {settings : Settings}
    {patience : Nat}
    {calls : List Call}
    {call : Call}
    {output : StatementOutput}
    {told : OutputRow}
    (isOutput : output ∈ ((new schema catalog settings patience).performAll calls).outputs call)
    (isTold : told ∈ output.rows) :
    let start := new schema catalog settings patience
    ∃ (scene : Scene) (earlier : List StoreCall), scene.Lawful ∧
      scene.journal = start.journal calls ++ earlier ∧
      earlier <+: (start.performAll calls).storeCalls call ∧
      ∃ statement ∈ scene.statements,
        statement.id = output.statement ∧
          statement.Tells scene.store (StateStore.empty.trace scene.journal) told ∧
            ∃ spec, .create spec ∈ calls ∧
              Plan.ofSpec schema catalog spec = .ok statement.plan := by
  intro start
  have lawful := lawful_sceneAfter schema catalog settings patience calls
  obtain ⟨scene, earlier, steps, isJournal, isPrefix, statement, member, isId, telling, original,
    isOriginal, samePlan⟩ := Scene.exists_telling isOutput isTold (start.journal calls)
  have isStore : (start.performAll calls).store =
      StateStore.empty.performAll (start.journal calls) := lawful.recorded
  refine ⟨scene, earlier, lawful.steps steps, isJournal, isPrefix, statement, member, isId, ?_, ?_⟩
  · rw [isJournal, StateStore.trace_append, ← isStore]
    exact telling.after _
  · rw [samePlan]
    rcases plan_of_mem_performAll isOriginal with ⟨_, nothing, _⟩ | created
    · cases nothing
    · exact created

end Processor

end EventQuery
