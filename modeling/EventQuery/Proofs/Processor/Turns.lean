import EventQuery.Proofs.Processor.Agreement
import EventQuery.Proofs.Statement.Apart

namespace EventQuery

/-!
# Turns of one statement

While all statements take their turns, each one finds the states that it had before and leaves those
that it has afterwards, whatever the others do before and after it.  What is told of it is what it
tells in its own turn.
-/

namespace Processor

open StateStore (SameOf)

/-- Whether a call goes to all statements. -/
def Call.isHeard : Call → Bool
  | .create _ => false
  | .destroy _ => false
  | .send _ => true
  | .advanceTime _ => true

/-- What is told of a statement in the course of some calls, for each call of a kind. -/
def tellings (processor : Processor) (id : StatementId) (isKind : Call → Bool) :
    List Call → List (List StatementOutput)
  | [] => []
  | call :: rest =>
      let later := tellings (processor.perform call) id isKind rest
      if isKind call then (processor.outputs call).filter (·.statement == id) :: later else later

/-- Whether a turn is a sequence of moves of its statement, and tells of that statement. -/
structure IsTurn (turn : Statement → StateStore → Statement × StateStore × StatementOutput) :
    Prop where
  moves :
    ∀ statement store, ∃ calls,
      Statement.Moves statement store calls (turn statement store).1 (turn statement store).2.1
  told : ∀ statement store, (turn statement store).2.2.statement = statement.id

theorem isTurn_send
    (event : Event)
    (number : Nat) :
    IsTurn fun statement store => statement.send store event [statement.id, number] where
  moves := fun statement store => ⟨_, statement.moves_send store event _⟩
  told := fun statement store => (statement.told_send store event _).1

theorem isTurn_advanceTime
    (now : Int)
    (number : Nat) :
    IsTurn fun statement store => statement.advanceTime store now [statement.id, number] where
  moves := fun statement store => ⟨_, statement.moves_advanceTime store now _⟩
  told := fun statement store => (statement.told_advanceTime store now _).1

/-- Statements that can take their turns in a store. -/
structure Ready (statements : List Statement) (store : StateStore) : Prop where
  sound : store.Sound
  tied : ∀ statement ∈ statements, statement.Tied store
  distinct : (statements.map Statement.id).Nodup

theorem Ready.of_agrees
    {scene : Scene}
    (agrees : scene.Agrees) :
    Ready scene.statements scene.store :=
  ⟨agrees.sound, agrees.tied, agrees.distinct⟩

section Turns

variable {turn : Statement → StateStore → Statement × StateStore × StatementOutput}
  {statement : Statement} {statements later : List Statement} {store : StateStore}

/-- The turn of the first statement leaves the others ready. -/
theorem Ready.next
    (ready : Ready (statement :: later) store)
    (isTurn : IsTurn turn) :
    Ready later (turn statement store).2.1 ∧
      ∀ id ≠ statement.id, SameOf id (turn statement store).2.1 store := by
  obtain ⟨calls, moves⟩ := isTurn.moves statement store
  have tied := ready.tied statement List.mem_cons_self
  have same : ∀ id ≠ statement.id, SameOf id (turn statement store).2.1 store :=
    fun id different => tied.sameOf_moves ready.sound moves different
  obtain ⟨absent, distinct⟩ := List.nodup_cons.mp ready.distinct
  refine ⟨⟨(tied.moves ready.sound moves).2, fun other member => ?_, distinct⟩, same⟩
  refine (ready.tied other (List.mem_cons_of_mem _ member)).of_lookup (same other.id ?_).lookups
  exact fun isId => absent (isId ▸ List.mem_map_of_mem member)

/-- The turns of other statements leave the states of a statement and tell nothing of it. -/
theorem Ready.silent
    (ready : Ready statements store)
    (isTurn : IsTurn turn)
    {id : StatementId}
    (absent : id ∉ statements.map Statement.id) :
    (takeTurns turn store statements).2.1.Sound ∧
      SameOf id (takeTurns turn store statements).2.1 store ∧
      (takeTurns turn store statements).2.2.filter (·.statement == id) = [] := by
  induction statements generalizing store with
  | nil => exact ⟨ready.sound, .refl id store, rfl⟩
  | cons statement rest inductionHypothesis =>
      rw [List.map_cons, List.mem_cons, not_or] at absent
      obtain ⟨readyRest, same⟩ := ready.next isTurn
      obtain ⟨sound, sameRest, silent⟩ := inductionHypothesis readyRest absent.2
      refine ⟨sound, sameRest.trans (same id absent.1), ?_⟩
      have other : ((turn statement store).2.2.statement == id) = false := by
        rw [isTurn.told]
        exact beq_false_of_ne (Ne.symm absent.1)
      simp only [takeTurns]
      split
      next => exact silent
      next => rw [List.filter_cons, other, silent]; rfl

/-- A statement takes its turn in a store that holds the same of it as before all turns. -/
theorem Ready.own
    (ready : Ready statements store)
    (isTurn : IsTurn turn)
    (member : statement ∈ statements) :
    ∃ held,
      held.Sound ∧ SameOf statement.id held store ∧
        (takeTurns turn store statements).2.1.Sound ∧
        SameOf statement.id (takeTurns turn store statements).2.1 (turn statement held).2.1 ∧
        (turn statement held).1 ∈ (takeTurns turn store statements).1 ∧
        (takeTurns turn store statements).2.2.filter (·.statement == statement.id) =
          if (turn statement held).2.2.isBlank then [] else [(turn statement held).2.2] := by
  induction statements generalizing store with
  | nil => cases member
  | cons first rest inductionHypothesis =>
      obtain ⟨readyRest, same⟩ := ready.next isTurn
      obtain ⟨absent, _⟩ := List.nodup_cons.mp ready.distinct
      rcases List.mem_cons.mp member with rfl | later
      · obtain ⟨sound, sameRest, silent⟩ := readyRest.silent isTurn absent
        have own : ((turn statement store).2.2.statement == statement.id) = true := by
          rw [isTurn.told]
          exact beq_self_eq_true _
        refine ⟨store, ready.sound, .refl _ store, sound, sameRest, List.mem_cons_self, ?_⟩
        simp only [takeTurns]
        split
        next => exact silent
        next => rw [List.filter_cons, own, silent]; rfl
      · have different : statement.id ≠ first.id :=
          fun isId => absent (isId ▸ List.mem_map_of_mem later)
        obtain ⟨held, isSound, sameHeld, sound, sameLast, isIn, told⟩ :=
          inductionHypothesis readyRest later
        have other : ((turn first store).2.2.statement == statement.id) = false := by
          rw [isTurn.told]
          exact beq_false_of_ne (Ne.symm different)
        refine ⟨held, isSound, sameHeld.trans (same _ different), sound, sameLast,
          List.mem_cons_of_mem _ isIn, ?_⟩
        rw [← told]
        simp only [takeTurns]
        split
        next => rfl
        next => rw [List.filter_cons, other]; rfl

/-- Statements keep their numbers in their turns. -/
theorem ids_takeTurns
    (isTurn : IsTurn turn)
    (store : StateStore)
    (statements : List Statement) :
    (takeTurns turn store statements).1.map Statement.id = statements.map Statement.id := by
  induction statements generalizing store with
  | nil => rfl
  | cons statement rest inductionHypothesis =>
      obtain ⟨_, moves⟩ := isTurn.moves statement store
      exact congrArg₂ List.cons moves.same.1 (inductionHypothesis _)

end Turns

end Processor

end EventQuery
