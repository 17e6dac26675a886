import EventQuery.Proofs.Store.Rows
import EventQuery.Proofs.Store.States

namespace EventQuery

/-!
# Laws of states

A law says what a state is for the rows that it holds, which are those that have entered it without
those that have left it.  A law that is kept when one row enters and when the oldest row leaves is
kept by all updates of a store, as long as rows leave in the order in which they entered.
-/

/-- What a state is for the rows that it holds, oldest first. -/
abbrev StateLaw := AggregateState → List Row → Prop

/-- Whether a law is kept when a row enters, with or without a fault, and when the oldest leaves. -/
structure StateLaw.Kept (law : StateLaw) : Prop where
  enter :
    ∀ {state rows} (row : Row) (occasion : Occasion),
      law state rows → (state.enter row occasion).2 = none →
        law (state.enter row occasion).1 (rows ++ [row])
  refuse :
    ∀ {state rows} (row : Row) (occasion : Occasion) {fault : Fault},
      law state rows → (state.enter row occasion).2 = some fault →
        law (state.enter row occasion).1 rows
  leave :
    ∀ {state rows} (row : Row) (occasion : Occasion),
      law state (row :: rows) → law (state.leave row occasion).1 rows

/-- A first part of a trace leaves rows in order when the trace does. -/
theorem StoreTrace.FirstInFirstOut.of_prefix
    {trace longer : StoreTrace}
    (ordered : longer.FirstInFirstOut)
    (before : trace <+: longer) :
    trace.FirstInFirstOut :=
  fun first isFirst => ordered first (isFirst.trans before)

namespace StateStore

/-- Asking for states leaves those that are there. -/
theorem Sound.stateAt_obtain
    {store : StateStore}
    {other : StatementId}
    {otherGroup : GroupKey}
    {key : StateKey}
    {state : AggregateState}
    (sound : store.Sound)
    (present : store.stateAt other otherGroup key = some state)
    (statement : StatementId)
    (group : GroupKey)
    (handler : AggregateHandler)
    (occasion : Occasion) :
    (store.obtain statement group handler occasion).1.stateAt other otherGroup key =
      some state := by
  rcases demanding : store.demanded statement group handler occasion with report | demanded
  · obtain ⟨_, same, places⟩ := sound.obtain_of_refused demanding
    rw [same, places, present]
  · obtain ⟨_, _, same, places⟩ := sound.obtain_of_demanded demanding
    rw [same, places]
    split
    next atPlace =>
        simp only [sameGroup, Bool.and_eq_true, beq_iff_eq] at atPlace
        obtain ⟨⟨rfl, inGroup⟩, rfl⟩ := atPlace
        rw [StateStore.demanded, stateAt_congr inGroup, present] at demanding
        exact congrArg some (Except.ok.inj demanding).symm
    next => exact present

/-- Whether the state at a place, if there is one, obeys a law for the rows that it holds. -/
def Obeys (store : StateStore) (trace : StoreTrace) (law : StateLaw) (statement : StatementId)
    (group : GroupKey) (key : StateKey) : Prop :=
  ∀ handle state, store.lookup statement group key = some handle →
    store.stateAt statement group key = some state →
      ∃ held, trace.entered handle.serial = trace.left handle.serial ++ held ∧ law state held

namespace Obeys

variable {store : StateStore} {trace : StoreTrace} {law : StateLaw} {statement : StatementId}
  {group : GroupKey} {key : StateKey}

/-- Calls that leave a state and its rows alone leave it lawful. -/
theorem untouched
    {later : StateStore}
    {further : StoreTrace}
    (obeys : store.Obeys trace law statement group key)
    (sameHandle : later.lookup statement group key = store.lookup statement group key)
    (sameState : later.stateAt statement group key = store.stateAt statement group key)
    (untouched :
      ∀ handle, store.lookup statement group key = some handle →
        further.entered handle.serial = [] ∧ further.left handle.serial = []) :
    later.Obeys (trace ++ further) law statement group key := by
  intro handle state found atPlace
  rw [sameHandle] at found
  rw [sameState] at atPlace
  obtain ⟨noEntry, noExit⟩ := untouched handle found
  rw [StoreTrace.entered_append, StoreTrace.left_append, noEntry, noExit, List.append_nil,
    List.append_nil]
  exact obeys _ _ found atPlace

/-- An update of a state leaves it lawful when the law holds of the new state and its rows. -/
theorem update
    {used : StateHandle}
    {change : AggregateState → AggregateState × Option Fault}
    {further : StoreTrace}
    (obeys : store.Obeys trace law statement group key)
    (sound : store.Sound)
    (found : store.lookup statement group key = some used)
    (changes :
      ∀ before held, law before held →
        trace.entered used.serial = trace.left used.serial ++ held →
          (store.update used change).2 = (change before).2 →
            ∃ after,
              (trace ++ further).entered used.serial =
                (trace ++ further).left used.serial ++ after ∧
                law (change before).1 after) :
    (store.update used change).1.Obeys (trace ++ further) law statement group key := by
  intro handle state foundAfter atPlace
  rw [lookup_update, found] at foundAfter
  cases foundAfter
  obtain ⟨before, isBefore, answered, places⟩ := sound.update_at found change
  obtain ⟨held, isHeld, lawful⟩ := obeys used before found isBefore
  rw [places, if_pos (by simp [sameGroup])] at atPlace
  cases atPlace
  exact changes before held lawful isHeld answered

/-- A row that enters a state keeps every law that entering rows keep. -/
theorem enter
    {used : StateHandle}
    (obeys : store.Obeys trace law statement group key)
    (kept : law.Kept)
    (sound : store.Sound)
    (found : store.lookup statement group key = some used)
    (row : Row)
    (occasion : Occasion) :
    (store.enter used row occasion).1.Obeys (trace ++ store.trace [.enter used row occasion]) law
      statement group key := by
  refine obeys.update sound found fun before held lawful isHeld answered => ?_
  have traced : store.trace [.enter used row occasion] =
      [(.enter used row occasion, .updated (before.enter row occasion).2)] :=
    congrArg (fun fault => [(StoreCall.enter used row occasion, StoreAnswer.updated fault)])
      answered
  rw [traced, StoreTrace.entered_append, StoreTrace.left_append, isHeld]
  rcases entering : (before.enter row occasion).2 with _ | fault
  · refine ⟨held ++ [row], ?_, kept.enter row occasion lawful entering⟩
    simp [StoreTrace.entered, StoreTrace.left, StoreTrace.entering, StoreTrace.leaving]
  · have noEntry : StoreTrace.entered
        [(.enter used row occasion, .updated (some fault))] used.serial = [] := rfl
    have noExit : StoreTrace.left
        [(.enter used row occasion, .updated (some fault))] used.serial = [] := rfl
    refine ⟨held, ?_, kept.refuse row occasion lawful entering⟩
    rw [noEntry, noExit, List.append_nil, List.append_nil]

/-- The oldest row that leaves a state keeps every law that leaving rows keep. -/
theorem leave
    {used : StateHandle}
    {row : Row}
    {occasion : Occasion}
    (obeys : store.Obeys trace law statement group key)
    (kept : law.Kept)
    (sound : store.Sound)
    (ordered : (trace ++ store.trace [.leave used row occasion]).FirstInFirstOut)
    (found : store.lookup statement group key = some used) :
    (store.leave used row occasion).1.Obeys (trace ++ store.trace [.leave used row occasion]) law
      statement group key := by
  refine obeys.update sound found fun before held lawful isHeld _ => ?_
  have noEntry : (store.trace [.leave used row occasion]).entered used.serial = [] := rfl
  have oneExit : (store.trace [.leave used row occasion]).left used.serial = [row] := by
    simp [StateStore.trace, StoreTrace.left, StoreTrace.leaving]
  have inOrder := ordered _ (List.prefix_refl _) used.serial
  rw [StoreTrace.entered_append, StoreTrace.left_append, noEntry, oneExit, isHeld,
    List.append_nil] at inOrder ⊢
  -- rows leave in order, so the row that leaves is the oldest one
  rw [List.prefix_append_right_inj] at inOrder
  obtain ⟨rest, rfl⟩ := inOrder
  exact ⟨rest, (List.append_assoc _ _ _).symm, kept.leave row occasion lawful⟩

/-- A call that uses the state of a place keeps every law that its updates keep. -/
theorem use
    {used : StateHandle}
    {call : StoreCall}
    (obeys : store.Obeys trace law statement group key)
    (kept : law.Kept)
    (sound : store.Sound)
    (ordered : (trace ++ store.trace [call]).FirstInFirstOut)
    (found : store.lookup statement group key = some used)
    (uses : call.Uses used) :
    (store.perform call).1.Obeys (trace ++ store.trace [call]) law statement group key := by
  cases call with
  | enter _ row occasion =>
      cases uses
      exact obeys.enter kept sound found row occasion
  | leave _ row occasion =>
      cases uses
      exact obeys.leave kept sound ordered found
  | read _ handler => exact obeys.untouched rfl rfl fun _ _ => ⟨rfl, rfl⟩
  | _ => cases uses

/-- A call that uses the state of another place leaves a state lawful. -/
theorem use_other
    {used : StateHandle}
    {call : StoreCall}
    {other : StatementId}
    {otherGroup : GroupKey}
    {otherKey : StateKey}
    (obeys : store.Obeys trace law statement group key)
    (sound : store.Sound)
    (found : store.lookup other otherGroup otherKey = some used)
    (uses : call.Uses used)
    (elsewhere : (sameGroup other otherGroup statement group && otherKey == key) = false) :
    (store.perform call).1.Obeys (trace ++ store.trace [call]) law statement group key := by
  have sameState : (store.perform call).1.stateAt statement group key =
      store.stateAt statement group key := by
    cases call with
    | enter _ row occasion =>
        cases uses
        obtain ⟨_, _, _, places⟩ := sound.update_at found fun state => state.enter row occasion
        exact (places statement group key).trans (if_neg (Bool.eq_false_iff.mp elsewhere))
    | leave _ row occasion =>
        cases uses
        obtain ⟨_, _, _, places⟩ := sound.update_at found fun state => state.leave row occasion
        exact (places statement group key).trans (if_neg (Bool.eq_false_iff.mp elsewhere))
    | read _ handler => rfl
    | _ => cases uses
  refine obeys.untouched (lookup_perform_of_uses uses) sameState fun handle isHandle => ?_
  refine trace_untouched fun next member otherUsed usesToo same => ?_
  obtain rfl := List.mem_singleton.mp member
  obtain rfl := uses.unique usesToo
  obtain ⟨rfl, inGroup, rfl⟩ := sound.place_of_serial found isHandle same
  simp [sameGroup, inGroup] at elsewhere

/-- Uses of handles that are found at places keep every law that updates keep. -/
theorem performAll
    {calls : List StoreCall}
    (obeys : store.Obeys trace law statement group key)
    (kept : law.Kept)
    (sound : store.Sound)
    (ordered : (trace ++ store.trace calls).FirstInFirstOut)
    (uses :
      ∀ call ∈ calls, ∃ handle other otherGroup otherKey, call.Uses handle ∧
        store.lookup other otherGroup otherKey = some handle) :
    (store.performAll calls).Obeys (trace ++ store.trace calls) law statement group key := by
  induction calls generalizing store trace with
  | nil =>
      rw [StateStore.trace, List.append_nil]
      exact obeys
  | cons call rest inductionHypothesis =>
      obtain ⟨used, other, otherGroup, otherKey, isUse, found⟩ := uses call List.mem_cons_self
      have split : trace ++ store.trace (call :: rest) =
          trace ++ store.trace [call] ++ (store.perform call).1.trace rest := by
        rw [List.append_assoc]
        rfl
      rw [split] at ordered ⊢
      refine inductionHypothesis ?_ (sound.perform call) ordered fun next member => ?_
      · rcases isPlace : sameGroup other otherGroup statement group && otherKey == key with _ | _
        · exact obeys.use_other sound found isUse isPlace
        · simp only [sameGroup, Bool.and_eq_true, beq_iff_eq] at isPlace
          obtain ⟨⟨rfl, inGroup⟩, rfl⟩ := isPlace
          rw [lookup_congr inGroup] at found
          exact obeys.use kept sound (ordered.of_prefix (List.prefix_append _ _)) found isUse
      · obtain ⟨handle, place, placeGroup, placeKey, nextUse, nextFound⟩ :=
          uses next (List.mem_cons_of_mem _ member)
        exact ⟨handle, place, placeGroup, placeKey, nextUse,
          (lookup_perform_of_uses isUse).trans nextFound⟩

end Obeys

end StateStore

end EventQuery
