import EventQuery.Proofs.Statement.Tied
import EventQuery.Proofs.Store.States

namespace EventQuery

/-!
# Statements keep apart

Whatever a statement does, it uses states of its own only.  The states of other statements are the
same afterwards, wherever the statement opens, drops or loses groups.
-/

/-- Whether two stores hold the same states of a statement under the same handles. -/
structure StateStore.SameOf (statement : StatementId) (left store : StateStore) : Prop where
  states : SameStates (fun other _ => other = statement) left store
  lookups : ∀ group key, left.lookup statement group key = store.lookup statement group key

namespace StateStore.SameOf

variable {statement : StatementId} {left middle store : StateStore}

theorem refl (statement : StatementId) (store : StateStore) : SameOf statement store store :=
  ⟨.refl store, fun _ _ => rfl⟩

theorem trans
    (later : SameOf statement left middle)
    (earlier : SameOf statement middle store) :
    SameOf statement left store where
  states := later.states.trans earlier.states
  lookups := fun group key => (later.lookups group key).trans (earlier.lookups group key)

end StateStore.SameOf

namespace Statement

open StateStore (SameOf SameStates Unseen)

variable {statement next : Statement} {store left : StateStore} {calls : List StoreCall}
  {seen : StatementId → GroupKey → Prop}

theorem sameStates_obtainAll
    (sound : store.Sound)
    {id : StatementId}
    {key : GroupKey}
    (unseen : Unseen seen id key)
    (occasion : Occasion)
    (position : Nat)
    (aggregates : List AggregateSlot) :
    SameStates seen (obtainAll id key occasion store position aggregates).1 store := by
  induction aggregates generalizing store position with
  | nil => exact .refl store
  | cons aggregate rest inductionHypothesis =>
      have first := SameStates.obtain sound unseen aggregate.handler (position :: occasion)
      have soundAfter := sound.obtain id key aggregate.handler (position :: occasion)
      rcases obtaining : store.obtain id key aggregate.handler (position :: occasion) with
        ⟨obtained, error | handle⟩
      · rw [obtaining] at first
        simp only [obtainAll, obtaining]
        exact first
      · rw [obtaining] at first soundAfter
        have others := (inductionHypothesis soundAfter (position + 1)).trans first
        rcases further : obtainAll id key occasion obtained (position + 1) rest with
          ⟨last, error | handles⟩ <;>
          · rw [further] at others
            simp only [obtainAll, obtaining, further]
            exact others

/-- Opening a group leaves the states of other groups. -/
theorem sameStates_openGroup
    (sound : store.Sound)
    {key : GroupKey}
    (unseen : Unseen seen statement.id key)
    (occasion : Occasion) :
    SameStates seen (statement.openGroup store key occasion).2.1 store := by
  rcases isOpen : statement.group? key with _ | group
  · rw [openGroup_of_closed isOpen]
    exact sameStates_obtainAll sound unseen occasion 0 _
  · rw [openGroup_of_open isOpen]
    exact .refl store

/-- A move of a statement leaves the states of all others. -/
theorem Tied.sameStates_move
    (tied : statement.Tied store)
    (sound : store.Sound)
    (move : Move statement store calls next left)
    {other : StatementId}
    (different : other ≠ statement.id) :
    SameStates (fun id _ => id = other) left store := by
  have unseen : ∀ group, Unseen (fun id _ => id = other) statement.id group :=
    fun _ _ _ isOther => different isOther.symm
  have noGroup : GroupKey → ¬ statement.id = other := fun _ isOther => different isOther.symm
  have opens : ∀ {key occasion opened obtained result},
      statement.openGroup store key occasion = (opened, obtained, result) →
        SameStates (fun id _ => id = other) obtained store := by
    intro key occasion opened obtained result outcome
    have same := sameStates_openGroup sound (unseen key) occasion
    rw [outcome] at same
    exact same
  cases move with
  | quiet same => exact .refl store
  | opened running closed outcome => exact opens outcome
  | aggregated row occasion running isOpen =>
      rw [← performAll_aggregateCalls]
      refine .performAll_of_uses sound fun call member => ?_
      obtain ⟨held, inGroups, handle, isHandle, uses⟩ := uses_of_mem_aggregateCalls isOpen member
      obtain ⟨stateKey, found⟩ := tied.lookup_of_mem inGroups isHandle
      exact ⟨handle, statement.id, held.key, stateKey, uses, found, unseen _⟩
  | dropped key running => exact .releaseGroup (unseen key)
  | stopped running =>
      rw [stop_of_running running]
      exact .releaseStatement noGroup
  | failed running closed outcome same =>
      have unchanged := (eq_of_openGroup_error outcome).1
      rw [stop_of_running (by rw [same.stopped, unchanged, running]), same.id, unchanged]
      exact (SameStates.releaseStatement noGroup).trans (opens outcome)
  | cleared ended => exact .releaseStatement noGroup

/-- Moves of a statement leave the states and the handles of all others. -/
theorem Tied.sameOf_moves
    (tied : statement.Tied store)
    (sound : store.Sound)
    (moves : Moves statement store calls next left)
    {other : StatementId}
    (different : other ≠ statement.id) :
    SameOf other left store := by
  induction moves with
  | none => exact .refl other store
  | more moves move inductionHypothesis =>
      obtain ⟨tiedBefore, soundBefore⟩ := tied.moves sound moves
      have apart : other ≠ _ := moves.same.1.symm ▸ different
      exact SameOf.trans ⟨tiedBefore.sameStates_move soundBefore move apart,
        move.lookup_other soundBefore apart⟩ inductionHypothesis

end Statement

end EventQuery
