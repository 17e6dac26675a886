import EventQuery.Processor
import EventQuery.Proofs.Statement.Moves
import Mathlib.Logic.Relation

namespace EventQuery

/-!
# Scenes of a processor

A scene is what a processor has at a moment, with all calls that its store has had so far.  However a
processor is used, it goes from scene to scene by small steps: a statement makes a move, a statement
is born idle, or a stopped statement is removed.  What every step keeps holds in every run.
-/

namespace Processor

/-- What can be asked of a processor. -/
inductive Call where
  | create (spec : StatementSpec)
  | destroy (id : StatementId)
  | send (event : Event)
  | advanceTime (now : Int)

/-- The processor after a call. -/
def perform (processor : Processor) : Call → Processor
  | .create spec => (processor.create spec).1
  | .destroy id => (processor.destroy id).1
  | .send event => (processor.send event).1
  | .advanceTime now => (processor.advanceTime now).1

/-- The processor after some calls. -/
def performAll (processor : Processor) : List Call → Processor
  | [] => processor
  | call :: rest => performAll (processor.perform call) rest

/-- The calls that the store gets while each statement takes its turn. -/
def turnCalls (turn : Statement → StateStore → Statement × StateStore × StatementOutput)
    (asked : Statement → StateStore → List StoreCall) (store : StateStore) :
    List Statement → List StoreCall
  | [] => []
  | statement :: rest =>
      asked statement store ++ turnCalls turn asked (turn statement store).2.1 rest

/-- The calls that the store gets in a call. -/
def storeCalls (processor : Processor) : Call → List StoreCall
  | .create spec =>
      match Plan.ofSpec processor.schema processor.catalog spec with
      | .error _ => []
      | .ok plan =>
          Statement.activateCalls processor.nextId plan processor.store processor.settings
            processor.patience processor.now
  | .destroy id =>
      match processor.find? id with
      | none => []
      | some statement => statement.stopCalls ++ [.releaseStatement id]
  | .send event =>
      turnCalls (fun statement store => statement.send store event [statement.id, processor.turn])
        (fun statement store => statement.sendCalls store event [statement.id, processor.turn])
        processor.store processor.statements
  | .advanceTime now =>
      if now < processor.now then []
      else
        turnCalls
          (fun statement store => statement.advanceTime store now [statement.id, processor.turn])
          (fun statement store => statement.timeCalls store now [statement.id, processor.turn])
          processor.store processor.statements

/-- The calls that the store gets in the course of some calls. -/
def journal (processor : Processor) : List Call → List StoreCall
  | [] => []
  | call :: rest => processor.storeCalls call ++ journal (processor.perform call) rest

end Processor

/-- What a processor has at a moment, with all calls that its store has had. -/
structure Scene where
  statements : List Statement
  store : StateStore
  journal : List StoreCall
  nextId : StatementId

/-- What a processor has, after its store has had some calls. -/
def Processor.scene (processor : Processor) (journal : List StoreCall) : Scene :=
  ⟨processor.statements, processor.store, journal, processor.nextId⟩

namespace Scene

/-- The scene before any call. -/
def empty : Scene := ⟨[], .empty, [], 1⟩

/-- One step from scene to scene. -/
inductive Step : Scene → Scene → Prop
  | moved {before after : List Statement} {statement next : Statement} {store left : StateStore}
      {journal calls : List StoreCall} {nextId : StatementId}
      (move : Statement.Move statement store calls next left) :
      Step ⟨before ++ statement :: after, store, journal, nextId⟩
        ⟨before ++ next :: after, left, journal ++ calls, nextId⟩
  | born {statements : List Statement} {store : StateStore} {journal : List StoreCall}
      {nextId : StatementId} (plan : Plan) (settings : Settings) (patience : Nat) (now : Int) :
      Step ⟨statements, store, journal, nextId⟩
        ⟨statements ++ [.idle nextId plan settings patience now], store, journal, nextId + 1⟩
  | removed {before after : List Statement} {statement : Statement} {store : StateStore}
      {journal : List StoreCall} {nextId : StatementId}
      (ended : statement.stopped = true) :
      Step ⟨before ++ statement :: after, store, journal, nextId⟩
        ⟨before ++ after, store, journal, nextId⟩

/-- Steps from scene to scene. -/
abbrev Steps : Scene → Scene → Prop := Relation.ReflTransGen Step

theorem Steps.of_moves
    {statement next : Statement}
    {store left : StateStore}
    {calls : List StoreCall}
    (moves : Statement.Moves statement store calls next left)
    (before after : List Statement)
    (journal : List StoreCall)
    (nextId : StatementId) :
    Steps ⟨before ++ statement :: after, store, journal, nextId⟩
      ⟨before ++ next :: after, left, journal ++ calls, nextId⟩ := by
  induction moves with
  | none =>
      rw [List.append_nil]
  | more _ move inductionHypothesis =>
      rw [← List.append_assoc]
      exact inductionHypothesis.tail (.moved move)

/-- Turns are taken one statement after another. -/
theorem Steps.of_turns
    {turn : Statement → StateStore → Statement × StateStore × StatementOutput}
    {asked : Statement → StateStore → List StoreCall}
    (moves : ∀ statement store,
      Statement.Moves statement store (asked statement store) (turn statement store).1
        (turn statement store).2.1)
    (before statements : List Statement)
    (store : StateStore)
    (journal : List StoreCall)
    (nextId : StatementId) :
    Steps ⟨before ++ statements, store, journal, nextId⟩
      ⟨before ++ (Processor.takeTurns turn store statements).1,
        (Processor.takeTurns turn store statements).2.1,
        journal ++ Processor.turnCalls turn asked store statements, nextId⟩ := by
  induction statements generalizing before store journal with
  | nil =>
      simp only [Processor.turnCalls, Processor.takeTurns, List.append_nil]
      exact Relation.ReflTransGen.refl
  | cons statement rest inductionHypothesis =>
      have first := Steps.of_moves (moves statement store) before rest journal nextId
      have others := inductionHypothesis (before ++ [(turn statement store).1])
        (turn statement store).2.1 (journal ++ asked statement store)
      rw [List.append_assoc, List.append_assoc, List.append_assoc] at others
      exact first.trans others

/-- No two statements have one number, and the store is what its calls have made of it. -/
structure Numbered (scene : Scene) : Prop where
  distinct : (scene.statements.map Statement.id).Nodup
  below : ∀ id ∈ scene.statements.map Statement.id, id < scene.nextId
  recorded : scene.store = StateStore.empty.performAll scene.journal

namespace Numbered

theorem empty : Scene.empty.Numbered where
  distinct := .nil
  below := fun _ member => nomatch member
  recorded := rfl

/-- After a move of one statement, all others are those of before and have other numbers. -/
theorem mem_moved
    {before after : List Statement}
    {statement changed other : Statement}
    {store : StateStore}
    {journal : List StoreCall}
    {nextId : StatementId}
    (numbered : Numbered ⟨before ++ statement :: after, store, journal, nextId⟩)
    (member : other ∈ before ++ changed :: after) :
    other = changed ∨ other ∈ before ++ statement :: after ∧ other.id ≠ statement.id := by
  have distinct : (before.map Statement.id ++ statement.id :: after.map Statement.id).Nodup := by
    simpa only [List.map_append, List.map_cons] using numbered.distinct
  rw [List.nodup_append, List.nodup_cons] at distinct
  rw [List.mem_append, List.mem_cons] at member ⊢
  rcases member with isBefore | isChanged | isAfter
  · exact .inr ⟨.inl isBefore, distinct.2.2 other.id (List.mem_map_of_mem isBefore) statement.id
      List.mem_cons_self⟩
  · exact .inl isChanged
  · exact .inr ⟨.inr (.inr isAfter), fun same =>
      distinct.2.1.1 (same ▸ List.mem_map_of_mem isAfter)⟩

theorem step
    {scene next : Scene}
    (numbered : scene.Numbered)
    (step : Step scene next) :
    next.Numbered := by
  cases step with
  | @moved before after statement next store left journal calls nextId move =>
      have ids : (before ++ next :: after).map Statement.id =
          (before ++ statement :: after).map Statement.id := by
        simp only [List.map_append, List.map_cons, move.same.1]
      refine ⟨ids ▸ numbered.distinct, ids ▸ numbered.below, ?_⟩
      rw [StateStore.performAll_append, ← numbered.recorded, move.performed]
  | born plan settings patience now =>
      refine ⟨?_, ?_, numbered.recorded⟩
      · rw [List.map_append, List.nodup_append]
        refine ⟨numbered.distinct, by simp, ?_⟩
        intro id member new isNew
        cases List.mem_singleton.mp isNew
        exact Nat.ne_of_lt (numbered.below id member)
      · intro id member
        rw [List.map_append, List.mem_append] at member
        rcases member with isOld | isNew
        · exact Nat.lt_succ_of_lt (numbered.below id isOld)
        · cases List.mem_singleton.mp isNew
          exact Nat.lt_succ_self _
  | @removed before after statement store journal nextId ended =>
      have kept : ((before ++ after).map Statement.id).Sublist
          ((before ++ statement :: after).map Statement.id) :=
        ((List.sublist_cons_self statement after).append_left before).map _
      exact ⟨numbered.distinct.sublist kept, fun id member => numbered.below id (kept.mem member),
        numbered.recorded⟩

theorem steps
    {scene last : Scene}
    (numbered : scene.Numbered)
    (steps : Steps scene last) :
    last.Numbered := by
  induction steps with
  | refl => exact numbered
  | tail _ step inductionHypothesis => exact inductionHypothesis.step step

end Numbered

/-- A statement is created idle and activated, and removed again when that stops it. -/
theorem Steps.create
    (processor : Processor)
    (journal : List StoreCall)
    (spec : StatementSpec) :
    Steps (processor.scene journal)
      ((processor.create spec).1.scene (journal ++ processor.storeCalls (.create spec))) := by
  rw [Processor.create, Processor.storeCalls]
  rcases planning : Plan.ofSpec processor.schema processor.catalog spec with error | plan
  · rw [List.append_nil]
  · let idle := Statement.idle processor.nextId plan processor.settings processor.patience
      processor.now
    obtain ⟨last, moves, result⟩ := Statement.moves_activate processor.nextId plan
      processor.store processor.settings processor.patience processor.now
    have born : Steps (processor.scene journal)
        ⟨processor.statements ++ [idle], processor.store, journal, processor.nextId + 1⟩ :=
      .single (.born plan processor.settings processor.patience processor.now)
    have active := born.trans
      (Steps.of_moves moves processor.statements [] journal (processor.nextId + 1))
    rcases activating : Statement.activate processor.nextId plan processor.store
      processor.settings processor.patience processor.now with ⟨store, error | statement⟩
    · rw [activating] at result active
      simp only [activating]
      have removed := active.tail (.removed result)
      rw [List.append_nil] at removed
      exact removed
    · rw [activating] at result active
      obtain ⟨rfl, _⟩ := result
      simp only [activating]
      exact active

/-- A statement is stopped and cleared, and then removed. -/
theorem Steps.destroy
    (processor : Processor)
    (distinct : (processor.statements.map Statement.id).Nodup)
    (journal : List StoreCall)
    (id : StatementId) :
    Steps (processor.scene journal)
      ((processor.destroy id).1.scene (journal ++ processor.storeCalls (.destroy id))) := by
  rw [Processor.destroy, Processor.storeCalls]
  rcases finding : processor.find? id with _ | statement
  · simp only [List.append_nil]
    exact Relation.ReflTransGen.refl
  · obtain ⟨isId, before, after, isList, othersBefore⟩ :=
      List.find?_eq_some_iff_append.mp finding
    have isId : statement.id = id := by simpa using isId
    have kept : (processor.statements.filter fun other => other.id != id) = before ++ after := by
      rw [isList, List.Nodup, List.pairwise_map, List.pairwise_append] at distinct
      have othersAfter := (List.pairwise_cons.mp distinct.2.1).1
      rw [isList, List.filter_append, List.filter_cons_of_neg (by simp [isId]),
        List.filter_eq_self.mpr, List.filter_eq_self.mpr]
      · exact fun other member => by
          simpa [isId] using (othersAfter other member).symm
      · exact fun other member => by simpa using othersBefore other member
    obtain ⟨moves, ended, sameId⟩ := Statement.moves_stop statement processor.store
    have cleared := moves.trans (.of_move (.cleared ended))
    have steps := (Steps.of_moves cleared before after journal processor.nextId).tail
      (.removed ended)
    rw [sameId, isId] at steps
    simp only [Processor.scene, kept]
    rw [isList]
    exact steps

/-- Every call of a processor is made in steps. -/
theorem Steps.perform
    (processor : Processor)
    (distinct : (processor.statements.map Statement.id).Nodup)
    (journal : List StoreCall)
    (call : Processor.Call) :
    Steps (processor.scene journal)
      ((processor.perform call).scene (journal ++ processor.storeCalls call)) := by
  cases call with
  | create spec => exact Steps.create processor journal spec
  | destroy id => exact Steps.destroy processor distinct journal id
  | send event =>
      exact Steps.of_turns (fun statement store => Statement.moves_send statement store event _)
        [] processor.statements processor.store journal processor.nextId
  | advanceTime now =>
      rw [Processor.perform, Processor.advanceTime, Processor.storeCalls]
      split
      next =>
          rw [List.append_nil]
      next =>
          exact Steps.of_turns
            (fun statement store => Statement.moves_advanceTime statement store now _)
            [] processor.statements processor.store journal processor.nextId

/-- Some calls of a processor are made in steps. -/
theorem Steps.performAll
    (processor : Processor)
    (journal : List StoreCall)
    (numbered : (processor.scene journal).Numbered)
    (calls : List Processor.Call) :
    Steps (processor.scene journal)
      ((processor.performAll calls).scene (journal ++ processor.journal calls)) := by
  induction calls generalizing processor journal with
  | nil =>
      rw [Processor.journal, List.append_nil]
      exact Relation.ReflTransGen.refl
  | cons call rest inductionHypothesis =>
      have first := Steps.perform processor numbered.distinct journal call
      have others := inductionHypothesis _ _ (numbered.steps first)
      rw [Processor.journal, ← List.append_assoc]
      exact first.trans others

end Scene

namespace Processor

variable (schema : Schema) (catalog : AggregateCatalog) (settings : Settings) (patience : Nat)
  (calls : List Call)

/-- The scene of a new processor after some calls. -/
def sceneAfter : Scene :=
  ((new schema catalog settings patience).performAll calls).scene
    ((new schema catalog settings patience).journal calls)

/-- Every run of a processor is made in steps. -/
theorem steps_sceneAfter :
    Scene.Steps .empty (sceneAfter schema catalog settings patience calls) :=
  Scene.Steps.performAll (new schema catalog settings patience) [] Scene.Numbered.empty calls

/-- A schema of ticks, each of which has a place. -/
def tickSchema : Schema :=
  Schema.empty.addShape ⟨"Tick", true, [("place", ⟨.str, none⟩)], []⟩

/-- A tick at a place. -/
def tickAt (number : Nat) (place : String) : Event :=
  ⟨.given number, "Tick", [("place", .str place)]⟩

/-- The statement that counts ticks for each place, over some latest ticks of all places. -/
def countByPlace (window : Option Nat) : StatementSpec where
  name := none
  source := .stream "Tick" none window
  select := [.column (.chain [.call "count" [.wildcard] none]) (some "ticks")]
  condition := none
  groupBy := [.chain [.property "place" none]]

end Processor

end EventQuery
