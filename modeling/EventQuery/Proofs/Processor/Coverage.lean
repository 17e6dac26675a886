import EventQuery.Proofs.Processor.Windows
import EventQuery.Proofs.Statement.Coverage

namespace EventQuery

/-!
# What windows cover in runs

In a run the rows that each statement accepts are recorded as they come, and marked when their group
is dropped.  The window of a statement is what is left of a last part of this record.
-/

namespace Processor

open Statement (arrivalOf)

/-- The rows that the statement of a number accepts from a call. -/
def accepted (processor : Processor) (id : StatementId) : Call → List Arrival
  | .send event =>
      ((processor.find? id).bind fun statement =>
        statement.accepts? event [id, processor.turn]).toList.map arrivalOf
  | _ => []

/-- The record of accepted rows after a call. -/
def recordCall (processor : Processor) (call : Call) (arrivals : StatementId → List Arrival)
    (id : StatementId) : List Arrival :=
  match (processor.perform call).find? id with
  | none => arrivals id ++ processor.accepted id call
  | some statement => Arrival.seen statement (arrivals id ++ processor.accepted id call)

/-- The record of accepted rows after some calls. -/
def recordAll (processor : Processor) (arrivals : StatementId → List Arrival) :
    List Call → StatementId → List Arrival
  | [] => arrivals
  | call :: rest => (processor.perform call).recordAll (processor.recordCall call arrivals) rest

/-- All windows are accounted for by a record. -/
structure Recorded (processor : Processor) (arrivals : StatementId → List Arrival) : Prop where
  accounts :
    ∀ statement ∈ processor.statements, ∀ size, statement.plan.window = some size →
      statement.Accounts size (arrivals statement.id)
  unknown : ∀ id, processor.nextId ≤ id → arrivals id = []

section Recording

variable {processor : Processor} {arrivals : StatementId → List Arrival}

/-- What was given no number has no statement. -/
theorem find?_eq_none_of_le
    (below : ∀ id ∈ processor.statements.map Statement.id, id < processor.nextId)
    {id : StatementId}
    (unknown : processor.nextId ≤ id) :
    processor.find? id = none := by
  refine List.find?_eq_none.mpr fun statement member isId => ?_
  have given := below statement.id (List.mem_map_of_mem member)
  rw [eq_of_beq isId] at given
  exact Nat.lt_irrefl _ (Nat.lt_of_lt_of_le given unknown)

/-- Every statement after all turns is what its turn has made of a statement of before. -/
theorem mem_takeTurns
    {turn : Statement → StateStore → Statement × StateStore × StatementOutput}
    {store : StateStore}
    {statements : List Statement}
    {changed : Statement}
    (member : changed ∈ (takeTurns turn store statements).1) :
    ∃ statement ∈ statements, ∃ held, changed = (turn statement held).1 := by
  induction statements generalizing store with
  | nil =>
      cases member
  | cons statement rest inductionHypothesis =>
      rcases List.mem_cons.mp member with rfl | later
      · exact ⟨statement, List.mem_cons_self, store, rfl⟩
      · obtain ⟨other, isOther, held, same⟩ := inductionHypothesis later
        exact ⟨other, List.mem_cons_of_mem _ isOther, held, same⟩

/-- Creating adds one statement at most, which has the next number and has accepted nothing. -/
theorem mem_statements_create
    {spec : StatementSpec}
    {statement : Statement}
    (member : statement ∈ (processor.create spec).1.statements) :
    statement ∈ processor.statements ∨
      statement.id = processor.nextId ∧
        ∀ size, statement.plan.window = some size → statement.Accounts size [] := by
  rcases planning : Plan.ofSpec processor.schema processor.catalog spec with refused | plan
  · simp only [create, planning] at member
    exact .inl member
  · rcases activating : Statement.activate processor.nextId plan processor.store
      processor.settings processor.patience processor.now with ⟨store, refused | active⟩
    · simp only [create, planning, activating] at member
      exact .inl member
    · simp only [create, planning, activating, List.mem_append, List.mem_singleton] at member
      refine member.imp id ?_
      rintro rfl
      obtain ⟨last, moves, result⟩ := Statement.moves_activate processor.nextId plan
        processor.store processor.settings processor.patience processor.now
      rw [activating] at moves result
      obtain ⟨rfl, _⟩ := result
      refine ⟨moves.same.1, fun size windowed => ?_⟩
      rw [moves.same.2] at windowed
      exact Statement.accounts_activate (congrArg Prod.snd activating) windowed

theorem nextId_le_perform
    (processor : Processor)
    (call : Call) :
    processor.nextId ≤ (processor.perform call).nextId := by
  cases call with
  | create spec =>
      rw [perform, create]
      split
      next => exact Nat.le_refl _
      next =>
          dsimp only
          split <;> exact Nat.le_succ _
  | destroy id => exact Nat.le_of_eq nextId_destroy.symm
  | send event => exact Nat.le_refl _
  | advanceTime now =>
      rw [perform, advanceTime]
      split <;> exact Nat.le_refl _

/-- A statement that a call leaves as it was stays accounted for. -/
theorem Recorded.accounts_of_mem
    (recorded : processor.Recorded arrivals)
    {statement : Statement}
    (member : statement ∈ processor.statements)
    {size : Nat}
    (windowed : statement.plan.window = some size) :
    statement.Accounts size (Arrival.seen statement (arrivals statement.id ++ [])) := by
  have accounts := recorded.accounts statement member size windowed
  rw [List.append_nil, Statement.seen_eq_self accounts.isOpen]
  exact accounts

/-- Every call keeps all windows accounted for. -/
theorem Recorded.perform
    (recorded : processor.Recorded arrivals)
    {journal : List StoreCall}
    (inStep : (processor.scene journal).InStep)
    (call : Call) :
    (processor.perform call).Recorded (processor.recordCall call arrivals) := by
  have steps := Scene.Steps.perform processor inStep.distinct journal call
  have numbered := inStep.toNumbered.steps steps
  have placed : ∀ statement ∈ processor.statements, ∀ held ∈ statement.window,
      ∃ group ∈ statement.groups, (group.key == held.group) = true :=
    fun statement member => (inStep.windows statement member).placed
  constructor
  · intro statement member size windowed
    rw [recordCall, find?_of_mem numbered.distinct member]
    cases call with
    | create spec =>
        rcases mem_statements_create member with isOld | ⟨isNext, accounts⟩
        · exact recorded.accounts_of_mem isOld windowed
        · rw [isNext, recorded.unknown _ (Nat.le_refl _)]
          exact accounts size windowed
    | destroy id =>
        refine recorded.accounts_of_mem ?_ windowed
        change statement ∈ (processor.destroy id).1.statements at member
        rw [destroy] at member
        split at member
        next => exact member
        next => exact (List.mem_filter.mp member).1
    | send event =>
        obtain ⟨before, isBefore, store, rfl⟩ := mem_takeTurns member
        have same := (Statement.moves_send before store event [before.id, processor.turn]).same
        rw [same.2] at windowed
        dsimp only [accepted]
        rw [same.1, find?_of_mem inStep.distinct isBefore, Option.bind_some]
        exact (recorded.accounts before isBefore size windowed).send (placed before isBefore) event
    | advanceTime now =>
        change statement ∈ (processor.advanceTime now).1.statements at member
        rw [advanceTime] at member
        split at member
        next => exact recorded.accounts_of_mem member windowed
        next =>
            obtain ⟨before, isBefore, store, rfl⟩ := mem_takeTurns member
            have same :=
              (Statement.moves_advanceTime before store now [before.id, processor.turn]).same
            rw [same.2] at windowed
            dsimp only [accepted]
            rw [same.1, List.append_nil]
            exact (recorded.accounts before isBefore size windowed).advanceTime
              (placed before isBefore) now
  · intro id unknown
    have unknownBefore := Nat.le_trans (nextId_le_perform processor call) unknown
    rw [recordCall, find?_eq_none_of_le numbered.below unknown, recorded.unknown id unknownBefore]
    cases call with
    | send event =>
        rw [accepted, find?_eq_none_of_le inStep.below unknownBefore]
        rfl
    | _ => rfl

theorem Recorded.performAll
    (recorded : processor.Recorded arrivals)
    {journal : List StoreCall}
    (inStep : (processor.scene journal).InStep)
    (calls : List Call) :
    (processor.performAll calls).Recorded (processor.recordAll arrivals calls) := by
  induction calls generalizing processor arrivals journal with
  | nil => exact recorded
  | cons call rest inductionHypothesis =>
      exact inductionHypothesis (recorded.perform inStep call)
        (inStep.steps (Scene.Steps.perform processor inStep.distinct journal call))

end Recording

/-- The states of all open groups hold nothing but rows of some lists, in order. -/
def HoldsFrom (statement : Statement) (trace : StoreTrace) (rows : GroupKey → List Row) : Prop :=
  ∀ group ∈ statement.groups, ∀ (place : Nat) (handle : StateHandle),
    (statement.distinctHandles group.handles)[place]? = some handle →
      ∃ held, trace.entered handle.serial = trace.left handle.serial ++ held ∧
        held.Sublist (rows group.key)

/-- The rows of a group among those with their groups. -/
def coveredRows (rows : List (Row × GroupKey)) (key : GroupKey) : List Row :=
  (rows.filter fun covered => key == covered.2).map Prod.fst

/-- The rows of a group among those that were accepted. -/
def acceptedRows (arrivals : List Arrival) (key : GroupKey) : List Row :=
  (arrivals.filter fun arrival => key == arrival.group).map Arrival.row

theorem coveredRows_kept_sublist
    (arrivals : List Arrival)
    (key : GroupKey) :
    (coveredRows (Arrival.kept arrivals) key).Sublist (acceptedRows arrivals key) := by
  rw [coveredRows, Arrival.kept, List.filter_map, List.map_map, acceptedRows]
  exact (List.filter_sublist.filter _).map _

section Runs

variable (schema : Schema) (catalog : AggregateCatalog) (settings : Settings) (patience : Nat)

/-- The rows that each statement accepts in a run. -/
def recordOf (calls : List Call) : StatementId → List Arrival :=
  (new schema catalog settings patience).recordAll (fun _ => []) calls

/-- In every run all windows are accounted for. -/
theorem recorded_recordOf
    (calls : List Call) :
    ((new schema catalog settings patience).performAll calls).Recorded
      (recordOf schema catalog settings patience calls) := by
  have start : (new schema catalog settings patience).Recorded fun _ => [] :=
    ⟨fun _ member => (nomatch member), fun _ _ => rfl⟩
  exact start.performAll Scene.InStep.empty calls

/--
What windows cover in every run.  A window has all of the latest rows that its statement has
accepted and of which the group was not dropped since, and it has no row of a dropped group.  It has
just the latest ones when no group is ever dropped, and also when none of the latest rows was
dropped.  The states of an open group hold rows of their group in the window only.  So they hold none
but the latest rows as long as the window is not longer than what is left of these.
-/
theorem window_covers_latest
    (calls : List Call) :
    let processor := (new schema catalog settings patience).performAll calls
    let trace := StateStore.empty.trace ((new schema catalog settings patience).journal calls)
    let record := recordOf schema catalog settings patience calls
    ∀ statement ∈ processor.statements, ∀ size, statement.plan.window = some size →
      let latest := (record statement.id).rtake size
      (Arrival.kept latest <:+ statement.covered ∧
        statement.covered <:+ Arrival.kept (record statement.id) ∧
        statement.window.length ≤ size) ∧
      (statement.reclaimAfter = none ∨ statement.plan.isGrouped = false ∨
          (∀ arrival ∈ latest, arrival.dropped = false) →
        statement.covered = Arrival.kept latest) ∧
      HoldsFrom statement trace (coveredRows statement.covered) ∧
      (statement.window.length ≤ (Arrival.kept latest).length →
        HoldsFrom statement trace (acceptedRows latest)) := by
  intro processor trace record statement member size windowed latest
  have inStep := inStep_sceneAfter schema catalog settings patience calls
  have recorded := recorded_recordOf schema catalog settings patience calls
  have accounts : statement.Accounts size (record statement.id) :=
    recorded.accounts statement member size windowed
  have own : statement.InStep trace := inStep.windows statement member
  have isWindowed : statement.plan.window.isSome = true := by rw [windowed]; rfl
  have held : HoldsFrom statement trace (coveredRows statement.covered) := by
    intro group isGroup place handle isHandle
    refine ⟨_, own.held isWindowed group isGroup place handle isHandle, ?_⟩
    rw [Statement.rowsAt, coveredRows, Statement.covered, List.filter_map, List.map_map]
    refine List.Sublist.map _ (List.monotone_filter_right _ fun held both => ?_)
    exact (Bool.and_eq_true_iff.mp both).1
  have neverDropped := accounts.covered_of_never_dropped fun ended =>
    ((inStep.tied statement member).ended ended).1
  refine ⟨⟨accounts.latest, accounts.earlier, accounts.bounded⟩, ?_, held, fun short => ?_⟩
  · rintro (never | ungrouped | noneDropped)
    · exact neverDropped (.inl never)
    · exact neverDropped (.inr ungrouped)
    · exact accounts.covered_of_none_dropped noneDropped
  · intro group isGroup place handle isHandle
    obtain ⟨rows, left, inGroup⟩ := held group isGroup place handle isHandle
    rw [accounts.covered_of_short short] at inGroup
    exact ⟨rows, left, inGroup.trans (coveredRows_kept_sublist _ _)⟩

/-- Without dropped groups, a window of three ticks has the latest three of all places. -/
theorem window_covers_latest_countByPlace :
    let calls : List Call :=
      [.create (countByPlace (some 3)), .send (tickAt 0 "here"), .send (tickAt 1 "there"),
        .send (tickAt 2 "here"), .send (tickAt 3 "there")]
    ∃ statement ∈ ((new tickSchema .standard .standard 1).performAll calls).statements,
      statement.plan.window = some 3 ∧ statement.reclaimAfter = none ∧
        statement.window.length = 3 ∧
        statement.covered = Arrival.kept
          ((recordOf tickSchema .standard .standard 1 calls statement.id).rtake 3) := by
  intro calls
  let statements := ((new tickSchema .standard .standard 1).performAll calls).statements
  let statement := statements.get ⟨0, by decide +kernel⟩
  have member : statement ∈ statements := List.get_mem _ _
  have windowed : statement.plan.window = some 3 := by decide +kernel
  have never : statement.reclaimAfter = none := by decide +kernel
  refine ⟨statement, member, windowed, never, by decide +kernel, ?_⟩
  exact (window_covers_latest tickSchema .standard .standard 1 calls statement member 3
    windowed).2.1 (.inl never)

/--
Where dropped rows have left room, an older row is kept: after the only tick at one place was
dropped, the count of another place holds three ticks, of which two only are among the latest three.
-/
theorem not_latest_after_drop :
    let settings : Settings := { reclaimGroupAfter := some 1000, reclaimFrequency := 0 }
    let calls : List Call :=
      [.create (countByPlace (some 3)), .send (tickAt 0 "here"), .send (tickAt 1 "there"),
        .advanceTime 500000000, .send (tickAt 2 "here"), .advanceTime 1000000000]
    let last := Call.send (tickAt 3 "here")
    let processor := (new tickSchema .standard settings 1).performAll calls
    let trace :=
      StateStore.empty.trace ((new tickSchema .standard settings 1).journal (calls ++ [last]))
    let record := recordOf tickSchema .standard settings 1 (calls ++ [last])
    (processor.outputs last).map (fun output => output.rows.length) = [1] ∧
      ¬ ∀ statement ∈ (processor.perform last).statements, ∀ size,
        statement.plan.window = some size →
          HoldsFrom statement trace (acceptedRows ((record statement.id).rtake size)) := by
  intro settings calls last processor trace record
  let statements := (processor.perform last).statements
  let statement := statements.get ⟨0, by decide +kernel⟩
  let group := statement.groups.get ⟨0, by decide +kernel⟩
  have isHandle : (statement.distinctHandles group.handles)[0]? = some ⟨.own 0 "count", 0⟩ := by
    decide +kernel
  have entered : (trace.entered 0).length = 3 := by decide +kernel
  have noneLeft : (trace.left 0).length = 0 := by decide +kernel
  have accepted : (acceptedRows ((record statement.id).rtake 3) group.key).length = 2 := by
    decide +kernel
  refine ⟨by decide +kernel, fun latest => ?_⟩
  obtain ⟨held, split, isLatest⟩ := latest statement (List.get_mem _ _) 3 (by decide +kernel) group
    (List.get_mem _ _) 0 _ isHandle
  have counted := congrArg List.length split
  rw [List.length_append, entered, noneLeft] at counted
  have short := isLatest.length_le
  omega

end Runs

end Processor

end EventQuery
