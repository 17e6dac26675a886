import EventQuery.Proofs.Processor.Agreement
import EventQuery.Proofs.Statement.InStep

namespace EventQuery

/-!
# Windows in step with states

In every run the window of each statement is in step with the states of its groups, whatever the
other statements do with the store that they share.  No state is ever asked to give up a row that it
does not hold.
-/

namespace Scene

/-- All windows are in step with the states, and rows leave all states in the order of entering. -/
structure InStep (scene : Scene) : Prop extends Agrees scene where
  fresh :
    ∀ serial, scene.store.next ≤ serial →
      (StateStore.empty.trace scene.journal).entered serial = [] ∧
        (StateStore.empty.trace scene.journal).left serial = []
  windows :
    ∀ statement ∈ scene.statements, statement.InStep (StateStore.empty.trace scene.journal)
  ordered : (StateStore.empty.trace scene.journal).FirstInFirstOut

namespace InStep

variable {scene next : Scene}

theorem empty : Scene.empty.InStep where
  toAgrees := .empty
  fresh := fun _ _ => ⟨rfl, rfl⟩
  windows := fun _ member => nomatch member
  ordered := by
    intro first isFirst serial
    rw [List.prefix_nil.mp isFirst]
    exact List.prefix_refl _

theorem moved
    {before after : List Statement}
    {statement changed : Statement}
    {store left : StateStore}
    {journal calls : List StoreCall}
    {nextId : StatementId}
    (inStep : InStep ⟨before ++ statement :: after, store, journal, nextId⟩)
    (move : Statement.Move statement store calls changed left) :
    InStep ⟨before ++ changed :: after, left, journal ++ calls, nextId⟩ := by
  have sound : store.Sound := inStep.sound
  have isMember : statement ∈ before ++ statement :: after := by simp
  have tied : statement.Tied store := inStep.tied statement isMember
  have own : statement.InStep (StateStore.empty.trace journal) :=
    inStep.windows statement isMember
  have fresh : ∀ serial, store.next ≤ serial →
      (StateStore.empty.trace journal).entered serial = [] ∧
        (StateStore.empty.trace journal).left serial = [] := inStep.fresh
  have isStore : store = StateStore.empty.performAll journal := inStep.recorded
  have traced : StateStore.empty.trace (journal ++ calls) =
      StateStore.empty.trace journal ++ store.trace calls := by
    rw [StateStore.trace_append, ← isStore]
  have used : ∀ call ∈ calls, ∀ handle, call.Uses handle →
      ∃ group key, store.lookup statement.id group key = some handle := by
    intro call member handle uses
    obtain ⟨group, isGroup, isHandle⟩ := move.handle_of_uses member uses
    obtain ⟨key, found⟩ := tied.lookup_of_mem isGroup isHandle
    exact ⟨group.key, key, found⟩
  refine ⟨inStep.toAgrees.moved move, ?_, ?_, ?_⟩
  · intro serial later
    have early : store.next ≤ serial := by
      refine Nat.le_trans ?_ later
      change store.next ≤ left.next
      rw [move.performed]
      exact sound.next_le_performAll calls
    obtain ⟨noEntry, noExit⟩ : (store.trace calls).entered serial = [] ∧
        (store.trace calls).left serial = [] := by
      refine StateStore.trace_untouched fun call member handle uses => ?_
      obtain ⟨group, key, found⟩ := used call member handle uses
      exact Nat.ne_of_lt (Nat.lt_of_lt_of_le (sound.serial_lt found) early)
    rw [traced, StoreTrace.entered_append, StoreTrace.left_append, (fresh serial early).1,
      (fresh serial early).2, noEntry, noExit]
    exact ⟨rfl, rfl⟩
  · intro other member
    rw [traced]
    rcases inStep.toNumbered.mem_moved member with rfl | ⟨isOther, different⟩
    · exact own.move tied sound fresh move
    · -- the other statement has states at places of its own number only
      have otherInStep : other.InStep (StateStore.empty.trace journal) :=
        inStep.windows other isOther
      refine otherInStep.of_untouched ?_
      intro call isCall handle uses group isGroup held isHeld same
      obtain ⟨_, _, found⟩ := used call isCall handle uses
      obtain ⟨_, foundToo⟩ := (inStep.tied other isOther).lookup_of_mem isGroup isHeld
      exact different (sound.place_of_serial found foundToo same).1.symm
  · rw [traced]
    exact own.ordered_move inStep.ordered tied sound move

/-- Every step keeps all windows in step. -/
theorem step
    (inStep : scene.InStep)
    (step : Step scene next) :
    next.InStep := by
  have agrees := inStep.toAgrees.step step
  cases step with
  | moved move => exact inStep.moved move
  | born plan settings patience now =>
      refine ⟨agrees, inStep.fresh, fun statement member => ?_, inStep.ordered⟩
      rcases List.mem_append.mp member with isOld | isNew
      · exact inStep.windows statement isOld
      · rw [List.mem_singleton.mp isNew]
        exact .of_nothing rfl rfl
  | removed ended =>
      refine ⟨agrees, inStep.fresh, fun statement member => ?_, inStep.ordered⟩
      refine inStep.windows statement ?_
      rw [List.mem_append] at member
      rw [List.mem_append, List.mem_cons]
      tauto

theorem steps
    (inStep : scene.InStep)
    (steps : Steps scene next) :
    next.InStep := by
  induction steps with
  | refl => exact inStep
  | tail _ step inductionHypothesis => exact inductionHypothesis.step step

end InStep

end Scene

namespace Processor

variable (schema : Schema) (catalog : AggregateCatalog) (settings : Settings) (patience : Nat)

/-- In every run windows and states are in step. -/
theorem inStep_sceneAfter
    (calls : List Call) :
    (sceneAfter schema catalog settings patience calls).InStep :=
  Scene.InStep.empty.steps (steps_sceneAfter schema catalog settings patience calls)

/--
Windows and states are in step in every run.  The rows of a window belong to open groups.  The rows
that have entered a state of an open group are those that have left it, followed by the rows of its
group in the window that came as far as to this state.  At no moment has another row left a state
than the first ones that had entered it.
-/
theorem window_in_step
    (calls : List Call) :
    let processor := (new schema catalog settings patience).performAll calls
    let journal := (new schema catalog settings patience).journal calls
    let trace := StateStore.empty.trace journal
    processor.store = StateStore.empty.performAll journal ∧
    (∀ statement ∈ processor.statements, statement.plan.window.isSome = true →
      (∀ held ∈ statement.window, ∃ group ∈ statement.groups, (group.key == held.group) = true) ∧
      ∀ group ∈ statement.groups, ∀ place handle,
        (statement.distinctHandles group.handles)[place]? = some handle →
          trace.entered handle.serial =
            trace.left handle.serial ++
              (statement.window.filter fun held =>
                group.key == held.group && decide (place < held.entered)).map WindowRow.row) ∧
    ∀ first : StoreTrace, first <+: trace → ∀ serial,
      first.left serial <+: first.entered serial := by
  intro processor journal trace
  have inStep := inStep_sceneAfter schema catalog settings patience calls
  refine ⟨inStep.recorded, fun statement member windowed => ?_, inStep.ordered⟩
  have own : statement.InStep trace := inStep.windows statement member
  exact ⟨own.placed, own.held windowed⟩

/-- Of three ticks, the first has left the count of its place, which holds the third. -/
theorem window_in_step_countByPlace :
    let calls : List Call :=
      [.create (countByPlace (some 2)), .send (tickAt 0 "here"), .send (tickAt 1 "there"),
        .send (tickAt 2 "here")]
    let trace := StateStore.empty.trace ((new tickSchema .standard .standard 1).journal calls)
    ∃ statement ∈ ((new tickSchema .standard .standard 1).performAll calls).statements,
      ∃ group ∈ statement.groups,
        statement.plan.window.isSome = true ∧
          (statement.distinctHandles group.handles)[0]? = some ⟨.own 0 "count", 0⟩ ∧
          (trace.left 0).length = 1 ∧ (trace.entered 0).length = 2 ∧
          trace.entered 0 = trace.left 0 ++
            (statement.window.filter fun held =>
              group.key == held.group && decide (0 < held.entered)).map WindowRow.row := by
  intro calls trace
  let statements := ((new tickSchema .standard .standard 1).performAll calls).statements
  let statement := statements.get ⟨0, by decide +kernel⟩
  let group := statement.groups.get ⟨0, by decide +kernel⟩
  have member : statement ∈ statements := List.get_mem _ _
  have isGroup : group ∈ statement.groups := List.get_mem _ _
  have windowed : statement.plan.window.isSome = true := by decide +kernel
  have isHandle : (statement.distinctHandles group.handles)[0]? = some ⟨.own 0 "count", 0⟩ := by
    decide +kernel
  refine ⟨statement, member, group, isGroup, windowed, isHandle, by decide +kernel,
    by decide +kernel, ?_⟩
  exact ((window_in_step tickSchema .standard .standard 1 calls).2.1 statement member windowed).2
    group isGroup 0 _ isHandle

end Processor

end EventQuery
