import EventQuery.Proofs.Store.Soundness

namespace EventQuery

/-!
# Calls of a store

A store is used by calls, each of which has an answer.  The state of a handle is what the calls
through handles of the same number have made of it, up to the release of its group or its statement;
from then on it is gone, whatever else is called.
-/

/-- What can be asked of a store. -/
inductive StoreCall where
  | obtain (statement : StatementId) (group : GroupKey) (handler : AggregateHandler)
      (occasion : Occasion)
  | lookup (statement : StatementId) (group : GroupKey) (key : StateKey)
  | releaseGroup (statement : StatementId) (group : GroupKey)
  | releaseStatement (statement : StatementId)
  | enter (handle : StateHandle) (row : Row) (occasion : Occasion)
  | leave (handle : StateHandle) (row : Row) (occasion : Occasion)
  | read (handle : StateHandle) (handler : AggregateHandler)
  | isLive (handle : StateHandle)
  | groupCount (statement : StatementId)
  | stateCount (statement : StatementId)

/-- What a store answers. -/
inductive StoreAnswer where
  | obtained (result : Except ActivationError StateHandle)
  | found (handle : Option StateHandle)
  | releasedGroup (wasHeld : Bool)
  | releasedStatement (groups : Nat)
  | updated (fault : Option Fault)
  | result (value : Option Value)
  | live (isLive : Bool)
  | count (number : Nat)

/-- Calls with their answers, in order. -/
abbrev StoreTrace := List (StoreCall × StoreAnswer)

namespace StateStore

/-- Answer a call. -/
def perform (store : StateStore) : StoreCall → StateStore × StoreAnswer
  | .obtain statement group handler occasion =>
      let (obtained, result) := store.obtain statement group handler occasion
      (obtained, .obtained result)
  | .lookup statement group key => (store, .found (store.lookup statement group key))
  | .releaseGroup statement group =>
      let (released, wasHeld) := store.releaseGroup statement group
      (released, .releasedGroup wasHeld)
  | .releaseStatement statement =>
      let (released, groups) := store.releaseStatement statement
      (released, .releasedStatement groups)
  | .enter handle row occasion =>
      let (changed, fault) := store.enter handle row occasion
      (changed, .updated fault)
  | .leave handle row occasion =>
      let (changed, fault) := store.leave handle row occasion
      (changed, .updated fault)
  | .read handle handler => (store, .result (store.read? handle handler))
  | .isLive handle => (store, .live (store.isLive handle))
  | .groupCount statement => (store, .count (store.groupCount statement))
  | .stateCount statement => (store, .count (store.stateCount statement))

/-- The store after some calls. -/
def performAll (store : StateStore) : List StoreCall → StateStore
  | [] => store
  | call :: rest => performAll (store.perform call).1 rest

/-- Some calls with their answers. -/
def trace (store : StateStore) : List StoreCall → StoreTrace
  | [] => []
  | call :: rest => (call, (store.perform call).2) :: trace (store.perform call).1 rest

theorem performAll_append
    (store : StateStore)
    (first second : List StoreCall) :
    store.performAll (first ++ second) = (store.performAll first).performAll second := by
  induction first generalizing store with
  | nil =>
      rfl
  | cons call rest inductionHypothesis =>
      exact inductionHypothesis _

theorem trace_append
    (store : StateStore)
    (first second : List StoreCall) :
    store.trace (first ++ second) =
      store.trace first ++ (store.performAll first).trace second := by
  induction first generalizing store with
  | nil =>
      rfl
  | cons call rest inductionHypothesis =>
      exact congrArg _ (inductionHypothesis _)

section Sound

variable {store : StateStore}

theorem Sound.obtain
    (sound : store.Sound)
    (statement : StatementId)
    (group : GroupKey)
    (handler : AggregateHandler)
    (occasion : Occasion) :
    (store.obtain statement group handler occasion).1.Sound := by
  obtain ⟨cell, _, same⟩ | ⟨state, _, _, same⟩ | ⟨report, _, _, same⟩ :=
    sound.obtain_cases statement group handler occasion
  · rw [same]
    exact sound
  · rw [same]
    exact sound.add statement group handler.key state
  · rw [same]
    exact sound.hold statement

theorem Sound.update
    (sound : store.Sound)
    (handle : StateHandle)
    (change : AggregateState → AggregateState × Option Fault) :
    (store.update handle change).1.Sound := by
  rw [StateStore.update]
  split
  next => exact sound
  next => exact sound.replace _ _

/-- Every call keeps a store sound. -/
theorem Sound.perform
    (sound : store.Sound)
    (call : StoreCall) :
    (store.perform call).1.Sound := by
  cases call with
  | obtain statement group handler occasion =>
      exact sound.obtain statement group handler occasion
  | releaseGroup statement group => exact sound.releaseGroup statement group
  | releaseStatement statement => exact sound.releaseStatement statement
  | enter handle row occasion => exact sound.update _ _
  | leave handle row occasion => exact sound.update _ _
  | _ => exact sound

theorem Sound.performAll
    (sound : store.Sound)
    (calls : List StoreCall) :
    (store.performAll calls).Sound := by
  induction calls generalizing store with
  | nil =>
      exact sound
  | cons call rest inductionHypothesis =>
      exact inductionHypothesis (sound.perform call)

/-- Numbers that were given out stay given out. -/
theorem Sound.next_le_perform
    (sound : store.Sound)
    (call : StoreCall) :
    store.next ≤ (store.perform call).1.next := by
  have update : ∀ handle change, store.next ≤ (store.update handle change).1.next := by
    intro handle change
    rw [StateStore.update]
    split <;> exact Nat.le_refl _
  cases call with
  | obtain statement group handler occasion =>
      change store.next ≤ (store.obtain statement group handler occasion).1.next
      obtain ⟨cell, _, same⟩ | ⟨state, _, _, same⟩ | ⟨report, _, _, same⟩ :=
        sound.obtain_cases statement group handler occasion
      · exact Nat.le_of_eq (congrArg (fun outcome => outcome.1.next) same).symm
      · rw [same]
        exact Nat.le_succ _
      · exact Nat.le_of_eq (congrArg (fun outcome => outcome.1.next) same).symm
  | releaseGroup statement group =>
      change store.next ≤ (store.releaseGroup statement group).1.next
      rw [StateStore.releaseGroup]
      split <;> exact Nat.le_refl _
  | enter handle row occasion => exact update _ _
  | leave handle row occasion => exact update _ _
  | _ => exact Nat.le_refl _

theorem Sound.next_le_performAll
    (sound : store.Sound)
    (calls : List StoreCall) :
    store.next ≤ (store.performAll calls).next := by
  induction calls generalizing store with
  | nil =>
      exact Nat.le_refl _
  | cons call rest inductionHypothesis =>
      exact Nat.le_trans (sound.next_le_perform call) (inductionHypothesis (sound.perform call))

end Sound

end StateStore

/-- What a call makes of a state that was put into a group of a statement under a number. -/
def StoreCall.effect (statement : StatementId) (group : GroupKey) (serial : Nat)
    (state : Option AggregateState) : StoreCall → Option AggregateState
  | .enter handle row occasion =>
      if handle.serial = serial then state.map fun held => (held.enter row occasion).1 else state
  | .leave handle row occasion =>
      if handle.serial = serial then state.map fun held => (held.leave row occasion).1 else state
  | .releaseGroup other otherGroup =>
      if StateStore.sameGroup other otherGroup statement group then none else state
  | .releaseStatement other => if other = statement then none else state
  | _ => state

namespace StateStore

/-- The state of a number is what is given: at its place, or gone for good. -/
def Serves (store : StateStore) (statement : StatementId) (group : GroupKey) (key : StateKey)
    (serial : Nat) : Option AggregateState → Prop
  | some state => store.cell? statement group key = some ⟨serial, state⟩
  | none =>
      serial < store.next ∧
        ∀ {other otherGroup otherKey cell},
          store.cell? other otherGroup otherKey = some cell → cell.serial ≠ serial

section Serves

variable {store : StateStore} {statement : StatementId} {group : GroupKey} {key : StateKey}
  {serial : Nat} {state : Option AggregateState}

/-- A handle of the number reads the state, if it is not gone. -/
theorem Serves.get?
    (serves : store.Serves statement group key serial state)
    (sound : store.Sound)
    {handle : StateHandle}
    (isHandle : handle.serial = serial) :
    store.get? handle = state := by
  cases state with
  | some state =>
      exact sound.get?_of_cell serves isHandle
  | none =>
      rw [Option.eq_none_iff_forall_ne_some]
      intro state found
      obtain ⟨_, _, _, atPlace⟩ := sound.get?_eq_some_iff.mp found
      exact serves.2 atPlace isHandle

/-- A number keeps what it serves where numbers are only given out and no place changes. -/
theorem Serves.of_cells
    (serves : store.Serves statement group key serial state)
    {other : StateStore}
    (next : store.next ≤ other.next)
    (cells : ∀ {statement group key},
      other.cell? statement group key = store.cell? statement group key) :
    other.Serves statement group key serial state := by
  cases state with
  | some state =>
      exact cells.trans serves
  | none =>
      exact ⟨Nat.lt_of_lt_of_le serves.1 next, fun found => serves.2 (cells ▸ found)⟩

/-- A new state comes to a place that no live state has, under a number that none has had. -/
theorem Serves.add
    (serves : store.Serves statement group key serial state)
    {other : StatementId}
    {otherGroup : GroupKey}
    {otherKey : StateKey}
    (absent : store.cell? other otherGroup otherKey = none)
    (created : AggregateState) :
    (store.add other otherGroup otherKey created).Serves statement group key serial state := by
  cases state with
  | some state =>
      change StateStore.cell? _ _ _ _ = _
      rw [cell?_add]
      split
      next same =>
          simp only [sameGroup, Bool.and_eq_true, beq_iff_eq] at same
          obtain ⟨⟨rfl, inGroup⟩, rfl⟩ := same
          rw [cell?_congr inGroup] at absent
          cases absent.symm.trans serves
      next => exact serves
  | none =>
      refine ⟨Nat.lt_succ_of_lt serves.1, fun found => ?_⟩
      rw [cell?_add] at found
      split at found
      next =>
          cases found
          exact Nat.ne_of_gt serves.1
      next => exact serves.2 found

/-- An update changes the state of its own number only. -/
theorem Serves.update
    (serves : store.Serves statement group key serial state)
    (sound : store.Sound)
    (handle : StateHandle)
    (change : AggregateState → AggregateState × Option Fault) :
    (store.update handle change).1.Serves statement group key serial
      (if handle.serial = serial then state.map fun held => (change held).1 else state) := by
  rw [StateStore.update]
  split
  next dead =>
      split
      next same =>
          rw [serves.get? sound same] at dead
          subst dead
          exact serves
      next => exact serves
  next found live =>
      split
      next same =>
          rw [serves.get? sound same] at live
          subst live
          change StateStore.cell? _ _ _ _ = _
          rw [cell?_replace, serves, Option.map_some, StateCell.replace, if_pos same.symm]
      next different =>
          cases state with
          | some state =>
              change StateStore.cell? _ _ _ _ = _
              rw [cell?_replace, serves, Option.map_some, StateCell.replace,
                if_neg fun equal => different equal.symm]
          | none =>
              refine ⟨serves.1, fun found => ?_⟩
              rw [cell?_replace, Option.map_eq_some_iff] at found
              obtain ⟨old, foundOld, rfl⟩ := found
              rw [StateCell.serial_replace]
              exact serves.2 foundOld

/-- Each call makes of a state what its effect says. -/
theorem Serves.perform
    (serves : store.Serves statement group key serial state)
    (sound : store.Sound)
    (call : StoreCall) :
    (store.perform call).1.Serves statement group key serial
      (call.effect statement group serial state) := by
  have nextMono := sound.next_le_perform call
  cases call with
  | obtain other otherGroup handler occasion =>
      change (store.obtain other otherGroup handler occasion).1.Serves _ _ _ _ state
      obtain ⟨cell, _, same⟩ | ⟨created, absent, _, same⟩ | ⟨report, _, _, same⟩ :=
        sound.obtain_cases other otherGroup handler occasion <;> rw [same]
      · exact serves
      · exact serves.add absent created
      · exact serves.of_cells (Nat.le_refl _) cell?_hold
  | releaseGroup other otherGroup =>
      change Serves (store.releaseGroup other otherGroup).1 _ _ _ _ _
      rw [StoreCall.effect]
      cases state with
      | some state =>
          split
          next same =>
              refine ⟨Nat.lt_of_lt_of_le (sound.fresh serves) nextMono, fun found => ?_⟩
              rw [cell?_releaseGroup] at found
              split at found
              next => cases found
              next different =>
                  intro equal
                  obtain ⟨rfl, inGroup, rfl⟩ := sound.unique found serves equal
                  simp only [sameGroup, Bool.and_eq_true, beq_iff_eq] at same different
                  exact different ⟨same.1, BEq.trans same.2 (BEq.symm inGroup)⟩
          next different =>
              change StateStore.cell? _ _ _ _ = _
              rw [cell?_releaseGroup, if_neg different]
              exact serves
      | none =>
          rw [ite_self]
          refine ⟨Nat.lt_of_lt_of_le serves.1 nextMono, fun found => ?_⟩
          rw [cell?_releaseGroup] at found
          split at found
          next => cases found
          next => exact serves.2 found
  | releaseStatement other =>
      change Serves (store.releaseStatement other).1 _ _ _ _ _
      rw [StoreCall.effect]
      cases state with
      | some state =>
          split
          next same =>
              refine ⟨Nat.lt_of_lt_of_le (sound.fresh serves) nextMono, fun found => ?_⟩
              rw [cell?_releaseStatement] at found
              split at found
              next => cases found
              next different =>
                  intro equal
                  obtain ⟨rfl, _, rfl⟩ := sound.unique found serves equal
                  exact different same
          next different =>
              change StateStore.cell? _ _ _ _ = _
              rw [cell?_releaseStatement, if_neg different]
              exact serves
      | none =>
          rw [ite_self]
          refine ⟨Nat.lt_of_lt_of_le serves.1 nextMono, fun found => ?_⟩
          rw [cell?_releaseStatement] at found
          split at found
          next => cases found
          next => exact serves.2 found
  | enter handle row occasion => exact serves.update sound handle _
  | leave handle row occasion => exact serves.update sound handle _
  | _ => exact serves

/-- Some calls make of a state what their effects say, one after another. -/
theorem Serves.performAll
    (serves : store.Serves statement group key serial state)
    (sound : store.Sound)
    (calls : List StoreCall) :
    (store.performAll calls).Serves statement group key serial
      (calls.foldl (StoreCall.effect statement group serial) state) := by
  induction calls generalizing store state with
  | nil =>
      exact serves
  | cons call rest inductionHypothesis =>
      exact inductionHypothesis (serves.perform sound call) (sound.perform call)

end Serves

end StateStore

end EventQuery
