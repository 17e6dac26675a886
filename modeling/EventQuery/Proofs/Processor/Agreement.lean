import EventQuery.Proofs.Processor.Scenes
import EventQuery.Proofs.Statement.Tied
import Mathlib.Data.List.Nodup

namespace EventQuery

/-!
# Agreement of statements and store

In every scene each statement is tied to the store, and the store holds states of statements of the
scene only.  So a state is held exactly for the open groups of running statements, nothing is left
behind by a creation that failed or by a statement that ended, and no row finds a state gone.
-/

namespace Scene

/-- All statements are tied to the store, which holds nothing else and was never read in vain. -/
structure Agrees (scene : Scene) : Prop extends Numbered scene where
  tied : ∀ statement ∈ scene.statements, statement.Tied scene.store
  owned :
    ∀ {id group key handle}, scene.store.lookup id group key = some handle →
      id ∈ scene.statements.map Statement.id
  answered : ∀ entry ∈ StateStore.empty.trace scene.journal, entry.2 ≠ .result none

namespace Agrees

variable {scene next : Scene}

theorem sound
    (agrees : scene.Agrees) :
    scene.store.Sound := by
  rw [agrees.recorded]
  exact StateStore.Sound.empty.performAll scene.journal

theorem empty : Scene.empty.Agrees where
  toNumbered := .empty
  tied := fun _ member => nomatch member
  owned := by simp [Scene.empty, StateStore.lookup, StateStore.cell?, StateStore.statesOf,
    StateStore.groupsOf, StateStore.empty, Table.find?]
  answered := fun _ member => nomatch member

/-- Nothing is held for a number that was not given out yet. -/
theorem lookup_of_unused
    {id : StatementId}
    (agrees : scene.Agrees)
    (unused : scene.nextId ≤ id)
    (group : GroupKey)
    (key : StateKey) :
    scene.store.lookup id group key = none := by
  rw [Option.eq_none_iff_forall_ne_some]
  intro handle found
  exact Nat.lt_irrefl _ (Nat.lt_of_lt_of_le (agrees.below id (agrees.owned found)) unused)

theorem moved
    {before after : List Statement}
    {statement changed : Statement}
    {store left : StateStore}
    {journal calls : List StoreCall}
    {nextId : StatementId}
    (agrees : Agrees ⟨before ++ statement :: after, store, journal, nextId⟩)
    (move : Statement.Move statement store calls changed left) :
    Agrees ⟨before ++ changed :: after, left, journal ++ calls, nextId⟩ := by
  have sound : store.Sound := agrees.sound
  have tied : statement.Tied store := agrees.tied statement (by simp)
  have ids : (before ++ changed :: after).map Statement.id =
      (before ++ statement :: after).map Statement.id := by
    simp only [List.map_append, List.map_cons, move.same.1]
  refine ⟨agrees.toNumbered.step (.moved move), ?_, ?_, ?_⟩
  · intro other member
    rcases agrees.toNumbered.mem_moved member with rfl | ⟨isOther, different⟩
    · exact tied.move sound move
    · exact (agrees.tied other isOther).of_lookup fun group key =>
        move.lookup_other sound different group key
  · intro id group key handle found
    rw [ids]
    by_cases isMoved : id = statement.id
    · simp [isMoved]
    · rw [move.lookup_other sound isMoved group key] at found
      exact agrees.owned found
  · intro entry member
    rw [StateStore.trace_append, List.mem_append] at member
    rcases member with earlier | now
    · exact agrees.answered entry earlier
    · have isStore : store = StateStore.empty.performAll journal := agrees.recorded
      rw [← isStore] at now
      exact move.answered tied sound entry now

/-- Every step keeps the agreement. -/
theorem step
    (agrees : scene.Agrees)
    (step : Step scene next) :
    next.Agrees := by
  have numbered := agrees.toNumbered.step step
  cases step with
  | moved move => exact agrees.moved move
  | @born statements store journal nextId plan settings patience now =>
      refine ⟨numbered, ?_, ?_, agrees.answered⟩
      · intro statement member
        rcases List.mem_append.mp member with isOld | isNew
        · exact agrees.tied statement isOld
        · rw [List.mem_singleton.mp isNew]
          exact .of_nothing rfl rfl (agrees.lookup_of_unused (Nat.le_refl nextId))
      · intro id group key handle found
        rw [List.map_append]
        exact List.mem_append_left _ (agrees.owned found)
  | @removed before after statement store journal nextId ended =>
      refine ⟨numbered, ?_, ?_, agrees.answered⟩
      · intro other member
        refine agrees.tied other ?_
        rw [List.mem_append] at member
        rw [List.mem_append, List.mem_cons]
        tauto
      · intro id group key handle found
        have owned := agrees.owned found
        rw [List.map_append, List.map_cons, List.mem_append, List.mem_cons] at owned
        rw [List.map_append, List.mem_append]
        rcases owned with isBefore | isRemoved | isAfter
        · exact .inl isBefore
        · have tied : statement.Tied store := agrees.tied statement (by simp)
          rw [isRemoved] at found
          obtain ⟨⟨held, member, _⟩, _⟩ := tied.known found
          rw [(tied.ended ended).1] at member
          cases member
        · exact .inr isAfter

theorem steps
    (agrees : scene.Agrees)
    (steps : Steps scene next) :
    next.Agrees := by
  induction steps with
  | refl => exact agrees
  | tail _ step inductionHypothesis => exact inductionHypothesis.step step

/-- A state is held exactly where a running statement has the group open and the key in use. -/
theorem lookup_isSome_iff
    (agrees : scene.Agrees)
    {id : StatementId}
    {group : GroupKey}
    {key : StateKey} :
    (scene.store.lookup id group key).isSome ↔
      ∃ statement ∈ scene.statements, statement.id = id ∧ statement.stopped = false ∧
        (∃ held ∈ statement.groups, (held.key == group) = true) ∧
          ∃ aggregate ∈ statement.plan.aggregates, aggregate.handler.key = key := by
  rw [Option.isSome_iff_exists]
  constructor
  · rintro ⟨handle, found⟩
    obtain ⟨statement, member, rfl⟩ := List.mem_map.mp (agrees.owned found)
    have tied := agrees.tied statement member
    obtain ⟨⟨held, isHeld, same⟩, isAggregate⟩ := tied.known found
    refine ⟨statement, member, rfl, ?_, ⟨held, isHeld, same⟩, isAggregate⟩
    rw [← Bool.not_eq_true]
    intro ended
    rw [(tied.ended ended).1] at isHeld
    cases isHeld
  · rintro ⟨statement, member, rfl, _, ⟨held, isHeld, same⟩, aggregate, isAggregate, rfl⟩
    have found := (agrees.tied statement member).found held isHeld
    obtain ⟨position, inside, rfl⟩ := List.mem_iff_getElem.mp isAggregate
    have inHandles : position < held.handles.length := found.length_eq ▸ inside
    refine ⟨held.handles[position], ?_⟩
    rw [← StateStore.lookup_congr same]
    exact found.get inside inHandles

end Agrees

/-- A number that was given out and of which no statement is running. -/
structure Retired (scene : Scene) (id : StatementId) : Prop where
  given : id < scene.nextId
  ended : ∀ statement ∈ scene.statements, statement.id = id → statement.stopped = true

/-- What is retired stays retired. -/
theorem Retired.steps
    {scene last : Scene}
    {id : StatementId}
    (retired : scene.Retired id)
    (steps : Steps scene last) :
    last.Retired id := by
  induction steps with
  | refl => exact retired
  | tail _ step inductionHypothesis =>
      cases step with
      | @moved before after statement next store left journal calls nextId move =>
          refine ⟨inductionHypothesis.given, fun other member isId => ?_⟩
          have others := inductionHypothesis.ended
          simp only [List.mem_append, List.mem_cons] at member others
          rcases member with isBefore | rfl | isAfter
          · exact others other (.inl isBefore) isId
          · exact move.stays_stopped
              (others statement (.inr (.inl rfl)) (move.same.1.symm.trans isId))
          · exact others other (.inr (.inr isAfter)) isId
      | born plan settings patience now =>
          have given := inductionHypothesis.given
          refine ⟨Nat.lt_succ_of_lt given, fun other member isId => ?_⟩
          rcases List.mem_append.mp member with isOld | isNew
          · exact inductionHypothesis.ended other isOld isId
          · rw [List.mem_singleton.mp isNew] at isId
            exact absurd isId (Nat.ne_of_gt given)
      | removed ended =>
          refine ⟨inductionHypothesis.given, fun other member isId => ?_⟩
          refine inductionHypothesis.ended other ?_ isId
          rw [List.mem_append] at member
          rw [List.mem_append, List.mem_cons]
          tauto

/-- Nothing is held for a retired number. -/
theorem Agrees.lookup_of_retired
    {scene : Scene}
    {id : StatementId}
    (agrees : scene.Agrees)
    (retired : scene.Retired id)
    (group : GroupKey)
    (key : StateKey) :
    scene.store.lookup id group key = none := by
  rw [← Option.not_isSome_iff_eq_none, agrees.lookup_isSome_iff]
  rintro ⟨statement, member, isId, running, _⟩
  cases running.symm.trans (retired.ended statement member isId)

end Scene

namespace Processor

variable (schema : Schema) (catalog : AggregateCatalog) (settings : Settings) (patience : Nat)

/-- In every run statements and store agree. -/
theorem agrees_sceneAfter
    (calls : List Call) :
    (sceneAfter schema catalog settings patience calls).Agrees :=
  Scene.Agrees.empty.steps (steps_sceneAfter schema catalog settings patience calls)

section Activity

variable {processor : Processor} {id : StatementId}

/-- The statement of a number is the one that has it. -/
theorem find?_of_mem
    (distinct : (processor.statements.map Statement.id).Nodup)
    {statement : Statement}
    (member : statement ∈ processor.statements) :
    processor.find? statement.id = some statement := by
  rcases found : processor.find? statement.id with _ | other
  · exact absurd (beq_self_eq_true _) (List.find?_eq_none.mp found statement member)
  · have isId : other.id = statement.id := by simpa using List.find?_some found
    rw [List.inj_on_of_nodup_map distinct (List.mem_of_find?_eq_some found) member isId]

/-- A statement that is not active is not there, or it is stopped. -/
theorem isActive_eq_false_iff
    (distinct : (processor.statements.map Statement.id).Nodup) :
    processor.isActive id = false ↔
      ∀ statement ∈ processor.statements, statement.id = id → statement.stopped = true := by
  rcases found : processor.find? id with _ | statement
  · refine ⟨fun _ statement member isId => ?_, fun _ => by rw [isActive, found]; rfl⟩
    exact absurd (beq_iff_eq.mpr isId) (List.find?_eq_none.mp found statement member)
  · have isId : statement.id = id := by simpa using List.find?_some found
    rw [isActive, found]
    constructor
    · intro inactive other member otherId
      rw [← otherId, find?_of_mem distinct member, Option.some.injEq] at found
      simpa [found] using inactive
    · intro ended
      simpa using ended statement (List.mem_of_find?_eq_some found) isId

/-- The outputs of a call. -/
def outputs (processor : Processor) : Call → List StatementOutput
  | .send event => (processor.send event).2
  | .advanceTime now => (processor.advanceTime now).2
  | _ => []

/-- The outputs of turns are that of the first one and those of the others. -/
theorem mem_outputs_takeTurns
    {turn : Statement → StateStore → Statement × StateStore × StatementOutput}
    {store : StateStore}
    {statement : Statement}
    {rest : List Statement}
    {output : StatementOutput}
    (member : output ∈ (takeTurns turn store (statement :: rest)).2.2) :
    output = (turn statement store).2.2 ∨
      output ∈ (takeTurns turn (turn statement store).2.1 rest).2.2 := by
  change output ∈ if (turn statement store).2.2.isBlank then
      (takeTurns turn (turn statement store).2.1 rest).2.2
    else
      (turn statement store).2.2 :: (takeTurns turn (turn statement store).2.1 rest).2.2
    at member
  split at member
  next => exact .inr member
  next => exact List.mem_cons.mp member

/-- A statement of which an error is told is stopped. -/
theorem stopped_of_takeTurns
    {turn : Statement → StateStore → Statement × StateStore × StatementOutput}
    (told : ∀ statement store,
      (turn statement store).2.2.statement = (turn statement store).1.id ∧
        ((turn statement store).2.2.error.isSome → (turn statement store).1.stopped = true))
    {store : StateStore}
    {statements : List Statement}
    {output : StatementOutput}
    (member : output ∈ (takeTurns turn store statements).2.2)
    (failed : output.error.isSome) :
    ∃ statement ∈ (takeTurns turn store statements).1,
      statement.id = output.statement ∧ statement.stopped = true := by
  induction statements generalizing store with
  | nil =>
      cases member
  | cons statement rest inductionHypothesis =>
      rcases mem_outputs_takeTurns member with rfl | later
      · exact ⟨_, List.mem_cons_self, (told statement store).1.symm,
          (told statement store).2 failed⟩
      · obtain ⟨other, inRest, isOther⟩ := inductionHypothesis later
        exact ⟨other, List.mem_cons_of_mem _ inRest, isOther⟩

/-- A call that tells an error leaves the statement stopped. -/
theorem stopped_of_outputs
    {call : Call}
    {output : StatementOutput}
    (member : output ∈ processor.outputs call)
    (failed : output.error.isSome) :
    ∃ statement ∈ (processor.perform call).statements,
      statement.id = output.statement ∧ statement.stopped = true := by
  cases call with
  | create spec => cases member
  | destroy id => cases member
  | send event =>
      refine stopped_of_takeTurns (fun statement store => ?_) member failed
      have told := statement.told_send store event [statement.id, processor.turn]
      exact ⟨told.1.trans (Statement.moves_send statement store event _).same.1.symm, told.2⟩
  | advanceTime now =>
      rw [outputs, advanceTime] at member
      rw [perform, advanceTime]
      split at member
      next => cases member
      next late =>
          rw [if_neg late]
          refine stopped_of_takeTurns (fun statement store => ?_) member failed
          have told := statement.told_advanceTime store now [statement.id, processor.turn]
          exact ⟨told.1.trans (Statement.moves_advanceTime statement store now _).same.1.symm,
            told.2⟩

/-- A creation that fails adds no statement. -/
theorem statements_of_create_error
    {spec : StatementSpec}
    {error : ActivationError}
    (failed : (processor.create spec).2 = .error error) :
    (processor.create spec).1.statements = processor.statements := by
  rcases planning : Plan.ofSpec processor.schema processor.catalog spec with refused | plan
  · simp only [create, planning]
  · rcases activating : Statement.activate processor.nextId plan processor.store
      processor.settings processor.patience processor.now with ⟨store, refused | statement⟩
    · simp only [create, planning, activating]
    · simp [create, planning, activating] at failed

/-- A statement that is destroyed is not there any more. -/
theorem statements_of_destroy
    {statement : Statement}
    (member : statement ∈ (processor.destroy id).1.statements) :
    statement.id ≠ id := by
  rcases finding : processor.find? id with _ | found
  · simp only [destroy, finding] at member
    have other := List.find?_eq_none.mp finding statement member
    simpa using other
  · simp only [destroy, finding] at member
    simpa using (List.mem_filter.mp member).2

theorem nextId_destroy : (processor.destroy id).1.nextId = processor.nextId := by
  rw [destroy]
  split <;> rfl

end Activity

/--
Statements and store agree in every run.  A state is held exactly for the open groups of running
statements under the keys of their aggregations, and an open group has a live handle for each of its
aggregations, of one state where the keys are equal.  No read has found a state gone, and no row ever
finds one gone.  A creation that fails leaves no state behind, and no state is ever held again for a
statement of which an error was told, one that was destroyed, or any other that is not active any
more.
-/
theorem registry_agrees
    (calls : List Call) :
    let processor := (new schema catalog settings patience).performAll calls
    (∀ id group key,
      (processor.store.lookup id group key).isSome ↔
        ∃ statement ∈ processor.statements, statement.id = id ∧ statement.stopped = false ∧
          (∃ held ∈ statement.groups, (held.key == group) = true) ∧
            ∃ aggregate ∈ statement.plan.aggregates, aggregate.handler.key = key) ∧
    (∀ statement ∈ processor.statements, ∀ held ∈ statement.groups,
      List.Forall₂
        (fun aggregate handle =>
          processor.store.lookup statement.id held.key aggregate.handler.key = some handle ∧
            processor.store.isLive handle = true)
        statement.plan.aggregates held.handles) ∧
    (∀ entry ∈ StateStore.empty.trace ((new schema catalog settings patience).journal calls),
      entry.2 ≠ .result none) ∧
    (∀ statement ∈ processor.statements, statement.stopped = false → ∀ row occasion,
      (statement.evaluateRow processor.store row occasion).2.2 ≠ .ok .stateGone) ∧
    (∀ spec error group key, (processor.create spec).2 = .error error →
      (processor.create spec).1.store.lookup processor.nextId group key = none) ∧
    (∀ call output later group key, output ∈ processor.outputs call → output.error.isSome →
      ((processor.perform call).performAll later).store.lookup output.statement group key = none) ∧
    (∀ id later group key, id < processor.nextId →
      ((processor.perform (.destroy id)).performAll later).store.lookup id group key = none) ∧
    (∀ id later group key, id < processor.nextId → processor.isActive id = false →
      (processor.performAll later).store.lookup id group key = none) := by
  intro processor
  have agrees : (processor.scene _).Agrees :=
    agrees_sceneAfter schema catalog settings patience calls
  have gone : ∀ {held : Processor} {journal id}, (held.scene journal).Agrees →
      (held.scene journal).Retired id → ∀ later group key,
        (held.performAll later).store.lookup id group key = none := by
    intro held journal id heldAgrees retired later group key
    have steps := Scene.Steps.performAll held journal heldAgrees.toNumbered later
    exact (heldAgrees.steps steps).lookup_of_retired (retired.steps steps) group key
  have after : ∀ call, ((processor.perform call).scene _).Agrees :=
    fun call => agrees.steps (Scene.Steps.perform processor agrees.distinct _ call)
  refine ⟨fun _ _ _ => agrees.lookup_isSome_iff, ?_, agrees.answered, ?_, ?_, ?_, ?_, ?_⟩
  · intro statement member held isHeld
    refine ((agrees.tied statement member).found held isHeld).imp fun aggregate handle found => ?_
    obtain ⟨state, live⟩ := agrees.sound.get?_of_lookup found
    exact ⟨found, Option.isSome_iff_exists.mpr ⟨state, live⟩⟩
  · intro statement member running row occasion
    exact (agrees.tied statement member).evaluateRow_found agrees.sound running row occasion
  · intro spec error group key failed
    rw [← Option.not_isSome_iff_eq_none]
    intro present
    obtain ⟨statement, member, isId, _⟩ := (after (.create spec)).lookup_isSome_iff.mp present
    change statement ∈ (processor.create spec).1.statements at member
    rw [statements_of_create_error failed] at member
    have below := agrees.below statement.id (List.mem_map_of_mem member)
    exact Nat.lt_irrefl _ (isId ▸ below)
  · intro call output later group key member failed
    obtain ⟨statement, isStatement, isId, ended⟩ := stopped_of_outputs member failed
    have agreesAfter := after call
    refine gone agreesAfter ⟨?_, fun other otherMember otherId => ?_⟩ later group key
    · exact isId ▸ agreesAfter.below statement.id (List.mem_map_of_mem isStatement)
    · have same := List.inj_on_of_nodup_map agreesAfter.distinct otherMember isStatement
        (otherId.trans isId.symm)
      exact same ▸ ended
  · intro id later group key given
    refine gone (after (.destroy id)) ⟨?_, fun statement member isId => ?_⟩ later group key
    · change id < (processor.destroy id).1.nextId
      rw [nextId_destroy]
      exact given
    · exact absurd isId (statements_of_destroy member)
  · intro id later group key given inactive
    exact gone agrees ⟨given, (isActive_eq_false_iff agrees.distinct).mp inactive⟩ later group key

/-- A count is held for the place of a tick until its statement is destroyed, and never again. -/
theorem registry_agrees_countByPlace :
    let processor := (new tickSchema .standard .standard 1).performAll
      [.create (countByPlace none), .send (tickAt 0 "here")]
    (processor.store.lookup 1 ⟨[.str "here"]⟩ (.own 0 "count")).isSome = true ∧
      1 < processor.nextId ∧
      ∀ later group key,
        ((processor.perform (.destroy 1)).performAll later).store.lookup 1 group key = none := by
  have given : 1 < ((new tickSchema .standard .standard 1).performAll
      [.create (countByPlace none), .send (tickAt 0 "here")]).nextId := by
    decide +kernel
  refine ⟨by decide +kernel, given, fun later group key => ?_⟩
  exact (registry_agrees tickSchema .standard .standard 1
    [.create (countByPlace none), .send (tickAt 0 "here")]).2.2.2.2.2.2.1 1 later group key given

end Processor

end EventQuery
