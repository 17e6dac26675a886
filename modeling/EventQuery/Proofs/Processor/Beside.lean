import EventQuery.Proofs.Processor.Turns
import EventQuery.Proofs.Statement.TwinTurns

namespace EventQuery

/-!
# Processors beside each other

Two processors are compared by one statement of each.  The statements are related as long as both are
there, and both have the same time.  Whatever is done to other statements of one processor keeps them
related, and so does a turn that is taken in both, when it keeps related statements related.
-/

namespace Processor

open StateStore (SameOf)

section Apart

variable {processor : Processor} {journal : List StoreCall} {id : StatementId}

/-- A call keeps the agreement of statements and store. -/
theorem agrees_perform
    (agrees : (processor.scene journal).Agrees)
    (call : Call) :
    ((processor.perform call).scene (journal ++ processor.storeCalls call)).Agrees :=
  agrees.steps (Scene.Steps.perform processor agrees.distinct journal call)

/-- Turns of all statements keep the agreement of statements and store. -/
theorem agrees_runAll
    {turn : Statement → StateStore → Statement × StateStore × StatementOutput}
    (agrees : (processor.scene journal).Agrees)
    (isTurn : IsTurn turn) :
    ∃ next, ((processor.runAll turn).1.scene next).Agrees := by
  choose asked moves using isTurn.moves
  exact ⟨_, agrees.steps (Scene.Steps.of_turns moves [] processor.statements processor.store journal
    processor.nextId)⟩

/-- Creating a statement leaves those of other numbers, and what is held for them. -/
theorem create_apart
    (agrees : (processor.scene journal).Agrees)
    (given : id < processor.nextId)
    (spec : StatementSpec) :
    SameOf id (processor.create spec).1.store processor.store ∧
      (processor.create spec).1.find? id = processor.find? id ∧
      processor.nextId ≤ (processor.create spec).1.nextId ∧
      (processor.create spec).1.now = processor.now := by
  rcases planning : Plan.ofSpec processor.schema processor.catalog spec with error | plan
  · simp only [create, planning]
    exact ⟨.refl id _, trivial, Nat.le_refl _, trivial⟩
  · have born : (Statement.idle processor.nextId plan processor.settings processor.patience
        processor.now).Tied processor.store :=
      .of_nothing rfl rfl (agrees.lookup_of_unused (Nat.le_refl _))
    obtain ⟨last, moves, result⟩ := Statement.moves_activate processor.nextId plan processor.store
      processor.settings processor.patience processor.now
    have same := born.sameOf_moves agrees.sound moves (Nat.ne_of_lt given)
    rcases activating : Statement.activate processor.nextId plan processor.store
      processor.settings processor.patience processor.now with ⟨store, error | statement⟩
    · rw [activating] at same
      simp only [create, planning, activating]
      exact ⟨same, rfl, Nat.le_succ _, trivial⟩
    · rw [activating] at same result
      obtain ⟨rfl, _⟩ := result
      simp only [create, planning, activating]
      refine ⟨same, ?_, Nat.le_succ _, trivial⟩
      have other : (statement.id == id) = false := by
        rw [moves.same.1]
        exact beq_false_of_ne (Nat.ne_of_gt given)
      rw [find?, List.find?_append, List.find?_cons, other, List.find?_nil, Option.or_none]
      rfl

/-- Destroying a statement leaves those of other numbers, and what is held for them. -/
theorem destroy_apart
    (agrees : (processor.scene journal).Agrees)
    {gone : StatementId}
    (different : id ≠ gone) :
    SameOf id (processor.destroy gone).1.store processor.store ∧
      (processor.destroy gone).1.find? id = processor.find? id ∧
      (processor.destroy gone).1.nextId = processor.nextId ∧
      (processor.destroy gone).1.now = processor.now := by
  rcases finding : processor.find? gone with _ | statement
  · simp only [destroy, finding]
    exact ⟨.refl id _, trivial, trivial, trivial⟩
  · have isGone : statement.id = gone := by simpa using List.find?_some finding
    have tied : statement.Tied processor.store :=
      agrees.tied statement (List.mem_of_find?_eq_some finding)
    obtain ⟨moves, ended, sameId⟩ := Statement.moves_stop statement processor.store
    have same := tied.sameOf_moves agrees.sound
      (moves.trans (.of_move (.cleared ended))) (isGone.symm ▸ different)
    rw [sameId, isGone] at same
    simp only [destroy, finding]
    refine ⟨same, ?_, trivial, trivial⟩
    rw [find?, List.find?_filter, find?]
    congr 1
    funext other
    by_cases isId : other.id = id
    · simp [isId, different]
    · simp [isId]

/-- Of a number without a statement nothing is told, and no turn brings a statement. -/
theorem runAll_absent
    {turn : Statement → StateStore → Statement × StateStore × StatementOutput}
    (ready : Ready processor.statements processor.store)
    (isTurn : IsTurn turn)
    (absent : processor.find? id = none) :
    (processor.runAll turn).1.find? id = none ∧
      (processor.runAll turn).2.filter (·.statement == id) = [] := by
  have unknown : id ∉ processor.statements.map Statement.id := by
    intro known
    obtain ⟨statement, member, isId⟩ := List.mem_map.mp known
    exact List.find?_eq_none.mp absent statement member (beq_iff_eq.mpr isId)
  refine ⟨List.find?_eq_none.mpr fun statement member isId => unknown ?_,
    (ready.silent isTurn unknown).2.2⟩
  rw [← ids_takeTurns isTurn processor.store, ← eq_of_beq isId]
  exact List.mem_map_of_mem member

/-- A statement takes its turn in a store that holds the same of it as before all turns. -/
theorem runAll_own
    {turn : Statement → StateStore → Statement × StateStore × StatementOutput}
    {statement : Statement}
    (ready : Ready processor.statements processor.store)
    (isTurn : IsTurn turn)
    (found : processor.find? id = some statement) :
    ∃ held,
      held.Sound ∧ SameOf id held processor.store ∧ (processor.runAll turn).1.store.Sound ∧
        SameOf id (processor.runAll turn).1.store (turn statement held).2.1 ∧
        (processor.runAll turn).1.find? id = some (turn statement held).1 ∧
        (processor.runAll turn).2.filter (·.statement == id) =
          if (turn statement held).2.2.isBlank then [] else [(turn statement held).2.2] := by
  obtain rfl : statement.id = id := by simpa using List.find?_some found
  obtain ⟨held, isSound, same, sound, sameLast, member, told⟩ :=
    ready.own isTurn (List.mem_of_find?_eq_some found)
  obtain ⟨_, moves⟩ := isTurn.moves statement held
  have distinct : ((processor.runAll turn).1.statements.map Statement.id).Nodup := by
    change ((takeTurns turn processor.store processor.statements).1.map Statement.id).Nodup
    rw [ids_takeTurns isTurn]
    exact ready.distinct
  have foundAfter := find?_of_mem distinct member
  rw [moves.same.1] at foundAfter
  exact ⟨held, isSound, same, sound, sameLast, foundAfter, told⟩

end Apart

/-- Whether a relation does not depend on what the stores hold of other statements. -/
def IsLocal (related : Statement → StateStore → Statement → StateStore → Prop) : Prop :=
  ∀ ⦃statement held left twin other otherLeft⦄,
    related statement held twin other →
      left.Sound → SameOf statement.id left held →
        otherLeft.Sound → SameOf twin.id otherLeft other →
          related statement left twin otherLeft

/-- Whether the statements of two numbers in two processors are related, or both are gone. -/
structure Beside (related : Statement → StateStore → Statement → StateStore → Prop)
    (first : Processor) (id : StatementId) (second : Processor) (number : StatementId) : Prop where
  agrees : ∃ journal, (first.scene journal).Agrees
  otherAgrees : ∃ journal, (second.scene journal).Agrees
  given : id < first.nextId
  otherGiven : number < second.nextId
  now : second.now = first.now
  related :
    (first.find? id = none ∧ second.find? number = none) ∨
      ∃ statement twin, first.find? id = some statement ∧ second.find? number = some twin ∧
        related statement first.store twin second.store

namespace Beside

variable {related : Statement → StateStore → Statement → StateStore → Prop}
  {first second : Processor} {id number : StatementId}

theorem symm
    (beside : Beside related first id second number) :
    Beside (fun twin other statement held => related statement held twin other) second number first
      id where
  agrees := beside.otherAgrees
  otherAgrees := beside.agrees
  given := beside.otherGiven
  otherGiven := beside.given
  now := beside.now.symm
  related := by
    obtain ⟨absent, otherAbsent⟩ | ⟨statement, twin, found, otherFound, are⟩ := beside.related
    · exact .inl ⟨otherAbsent, absent⟩
    · exact .inr ⟨twin, statement, otherFound, found, are⟩

/-- A call that concerns other statements of one processor keeps the statements related. -/
theorem perform
    (beside : Beside related first id second number)
    (call : Call)
    (isLocal : IsLocal related)
    (same : SameOf id (first.perform call).store first.store)
    (found : (first.perform call).find? id = first.find? id)
    (given : first.nextId ≤ (first.perform call).nextId)
    (now : (first.perform call).now = first.now) :
    Beside related (first.perform call) id second number := by
  obtain ⟨journal, agrees⟩ := beside.agrees
  obtain ⟨otherJournal, otherAgrees⟩ := beside.otherAgrees
  have agreesNext := agrees_perform agrees call
  refine ⟨⟨_, agreesNext⟩, beside.otherAgrees, Nat.lt_of_lt_of_le beside.given given,
    beside.otherGiven, beside.now.trans now.symm, ?_⟩
  rw [found]
  refine beside.related.imp_right fun ⟨statement, twin, isFound, otherFound, are⟩ =>
    ⟨statement, twin, isFound, otherFound, ?_⟩
  obtain rfl : statement.id = id := by simpa using List.find?_some isFound
  exact isLocal are agreesNext.sound same otherAgrees.sound (.refl twin.id _)

theorem create
    (beside : Beside related first id second number)
    (isLocal : IsLocal related)
    (spec : StatementSpec) :
    Beside related (first.create spec).1 id second number := by
  obtain ⟨journal, agrees⟩ := beside.agrees
  obtain ⟨same, found, given, now⟩ := create_apart agrees beside.given spec
  exact beside.perform (.create spec) isLocal same found given now

theorem destroyOther
    (beside : Beside related first id second number)
    (isLocal : IsLocal related)
    {gone : StatementId}
    (different : id ≠ gone) :
    Beside related (first.destroy gone).1 id second number := by
  obtain ⟨journal, agrees⟩ := beside.agrees
  obtain ⟨same, found, given, now⟩ := destroy_apart agrees different
  exact beside.perform (.destroy gone) isLocal same found (Nat.le_of_eq given.symm) now

/-- When both statements are destroyed, both are gone. -/
theorem destroy
    (beside : Beside related first id second number) :
    Beside related (first.destroy id).1 id (second.destroy number).1 number := by
  have gone : ∀ processor : Processor, ∀ held, (processor.destroy held).1.find? held = none := by
    intro processor held
    refine List.find?_eq_none.mpr fun statement member isId => ?_
    exact statements_of_destroy member (eq_of_beq isId)
  have kept : ∀ processor : Processor, ∀ held, (processor.destroy held).1.now = processor.now := by
    intro processor held
    rw [Processor.destroy]
    split <;> rfl
  obtain ⟨journal, agrees⟩ := beside.agrees
  obtain ⟨otherJournal, otherAgrees⟩ := beside.otherAgrees
  exact {
    agrees := ⟨_, agrees_perform agrees (.destroy id)⟩
    otherAgrees := ⟨_, agrees_perform otherAgrees (.destroy number)⟩
    given := nextId_destroy.symm ▸ beside.given
    otherGiven := nextId_destroy.symm ▸ beside.otherGiven
    now := by rw [kept, kept, beside.now]
    related := .inl ⟨gone first id, gone second number⟩ }

/-- Statements that take the same turn stay related, and the same is told of both. -/
theorem runAll
    {turn otherTurn : Statement → StateStore → Statement × StateStore × StatementOutput}
    {rename : String → String}
    (beside : Beside related first id second number)
    (isLocal : IsLocal related)
    (isTurn : IsTurn turn)
    (otherIsTurn : IsTurn otherTurn)
    (step : ∀ {statement held twin other}, related statement held twin other →
      (otherTurn twin other).2.2 = (turn statement held).2.2.relabel twin.id rename ∧
        related (turn statement held).1 (turn statement held).2.1 (otherTurn twin other).1
          (otherTurn twin other).2.1) :
    (second.runAll otherTurn).2.filter (·.statement == number) =
        ((first.runAll turn).2.filter (·.statement == id)).map (·.relabel number rename) ∧
      Beside related (first.runAll turn).1 id (second.runAll otherTurn).1 number := by
  obtain ⟨journal, agrees⟩ := beside.agrees
  obtain ⟨otherJournal, otherAgrees⟩ := beside.otherAgrees
  have ready : Ready first.statements first.store := .of_agrees agrees
  have otherReady : Ready second.statements second.store := .of_agrees otherAgrees
  have after := agrees_runAll agrees isTurn
  have otherAfter := agrees_runAll otherAgrees otherIsTurn
  obtain ⟨absent, otherAbsent⟩ | ⟨statement, twin, found, otherFound, are⟩ := beside.related
  · obtain ⟨stillAbsent, silent⟩ := runAll_absent ready isTurn absent
    obtain ⟨stillOther, otherSilent⟩ := runAll_absent otherReady otherIsTurn otherAbsent
    refine ⟨by rw [silent, otherSilent]; rfl, after, otherAfter, beside.given, beside.otherGiven,
      beside.now, .inl ⟨stillAbsent, stillOther⟩⟩
  · obtain ⟨held, isSound, same, sound, sameLast, foundAfter, told⟩ :=
      runAll_own ready isTurn found
    obtain ⟨otherHeld, otherIsSound, otherSame, otherSound, otherLast, otherAfterFound, otherTold⟩ :=
      runAll_own otherReady otherIsTurn otherFound
    obtain rfl : statement.id = id := by simpa using List.find?_some found
    obtain rfl : twin.id = number := by simpa using List.find?_some otherFound
    -- What other statements do before and after the turn is not seen by the relation.
    obtain ⟨tells, stillAre⟩ := step (isLocal are isSound same otherIsSound otherSame)
    obtain ⟨_, moves⟩ := isTurn.moves statement held
    obtain ⟨_, otherMoves⟩ := otherIsTurn.moves twin otherHeld
    refine ⟨?_, after, otherAfter, beside.given, beside.otherGiven, beside.now,
      .inr ⟨_, _, foundAfter, otherAfterFound, ?_⟩⟩
    · rw [told, otherTold, tells, StatementOutput.isBlank_relabel]
      split <;> rfl
    · exact isLocal stillAre sound (moves.same.1.symm ▸ sameLast) otherSound
        (otherMoves.same.1.symm ▸ otherLast)

/-- A turn that keeps the statements related can be taken in one processor only. -/
theorem runLeft
    {turn : Statement → StateStore → Statement × StateStore × StatementOutput}
    (beside : Beside related first id second number)
    (isLocal : IsLocal related)
    (isTurn : IsTurn turn)
    (step : ∀ {statement held twin other}, related statement held twin other →
      related (turn statement held).1 (turn statement held).2.1 twin other) :
    Beside related (first.runAll turn).1 id second number := by
  obtain ⟨journal, agrees⟩ := beside.agrees
  obtain ⟨otherJournal, otherAgrees⟩ := beside.otherAgrees
  have ready : Ready first.statements first.store := .of_agrees agrees
  have otherSound : second.store.Sound := otherAgrees.sound
  refine ⟨agrees_runAll agrees isTurn, beside.otherAgrees, beside.given, beside.otherGiven,
    beside.now, ?_⟩
  obtain ⟨absent, otherAbsent⟩ | ⟨statement, twin, found, otherFound, are⟩ := beside.related
  · exact .inl ⟨(runAll_absent ready isTurn absent).1, otherAbsent⟩
  · obtain ⟨held, isSound, same, sound, sameLast, foundAfter, _⟩ := runAll_own ready isTurn found
    obtain rfl : statement.id = id := by simpa using List.find?_some found
    obtain ⟨_, moves⟩ := isTurn.moves statement held
    have stillAre := step (isLocal are isSound same otherSound (.refl twin.id _))
    exact .inr ⟨_, twin, foundAfter, otherFound,
      isLocal stillAre sound (moves.same.1.symm ▸ sameLast) otherSound (.refl twin.id _)⟩

end Beside

end Processor

end EventQuery
