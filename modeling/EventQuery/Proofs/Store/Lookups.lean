import EventQuery.Proofs.Store.Calls

namespace EventQuery

/-!
# Handles at places

Which handle is found at which place changes only when a state is created or released.  Updates and
reads leave all handles where they are, and asking for a state only adds the one that was missing.
-/

/-- Whether the call updates or reads the state of a handle. -/
def StoreCall.Uses (call : StoreCall) (handle : StateHandle) : Prop :=
  match call with
  | .enter used _ _ => used = handle
  | .leave used _ _ => used = handle
  | .read used _ => used = handle
  | _ => False

/-- A call uses one state at most. -/
theorem StoreCall.Uses.unique
    {call : StoreCall}
    {handle other : StateHandle}
    (uses : call.Uses handle)
    (usesToo : call.Uses other) :
    other = handle := by
  cases call with
  | enter => exact usesToo.symm.trans uses
  | leave => exact usesToo.symm.trans uses
  | read => exact usesToo.symm.trans uses
  | _ => cases uses

namespace StateStore

variable {store : StateStore} {statement other : StatementId} {group otherGroup : GroupKey}
  {key otherKey : StateKey} {handle : StateHandle}

theorem lookup_congr
    (same : (group == otherGroup) = true) :
    store.lookup statement group key = store.lookup statement otherGroup key := by
  rw [lookup, lookup, cell?_congr same]

theorem lookup_releaseGroup :
    (store.releaseGroup statement group).1.lookup other otherGroup key =
      if sameGroup statement group other otherGroup then none
      else store.lookup other otherGroup key := by
  rw [lookup, cell?_releaseGroup, lookup]
  split <;> rfl

theorem lookup_releaseStatement :
    (store.releaseStatement statement).1.lookup other group key =
      if statement = other then none else store.lookup other group key := by
  rw [lookup, cell?_releaseStatement, lookup]
  split <;> rfl

theorem lookup_update
    {change : AggregateState → AggregateState × Option Fault} :
    (store.update handle change).1.lookup statement group key =
      store.lookup statement group key := by
  rw [update]
  split
  next => rfl
  next =>
      rw [lookup, cell?_replace, lookup, Option.map_map]
      congr 1
      funext cell
      exact congrArg _ (StateCell.serial_replace _ _ _)

/-- Uses of handles leave all handles where they are. -/
theorem lookup_perform_of_uses
    {call : StoreCall}
    (uses : call.Uses handle) :
    (store.perform call).1.lookup statement group key = store.lookup statement group key := by
  cases call with
  | enter used row occasion => exact lookup_update
  | leave used row occasion => exact lookup_update
  | read used handler => rfl
  | _ => cases uses

theorem lookup_performAll_of_uses
    {calls : List StoreCall}
    (uses : ∀ call ∈ calls, ∃ handle, call.Uses handle) :
    (store.performAll calls).lookup statement group key = store.lookup statement group key := by
  induction calls generalizing store with
  | nil =>
      rfl
  | cons call rest inductionHypothesis =>
      obtain ⟨handle, isUse⟩ := uses call List.mem_cons_self
      have others : ∀ call ∈ rest, ∃ handle, call.Uses handle :=
        fun call member => uses call (List.mem_cons_of_mem _ member)
      rw [performAll, inductionHypothesis others, lookup_perform_of_uses isUse]

/-- A handle that is found at a place is live. -/
theorem Sound.get?_of_lookup
    (sound : store.Sound)
    (found : store.lookup statement group key = some handle) :
    ∃ state, store.get? handle = some state := by
  obtain ⟨cell, atPlace, rfl⟩ := Option.map_eq_some_iff.mp found
  exact ⟨cell.state, sound.get?_of_cell atPlace rfl⟩

/-- Handles with one number are found at one place. -/
theorem Sound.place_of_serial
    {otherHandle : StateHandle}
    (sound : store.Sound)
    (found : store.lookup statement group key = some handle)
    (foundToo : store.lookup other otherGroup otherKey = some otherHandle)
    (same : handle.serial = otherHandle.serial) :
    statement = other ∧ (group == otherGroup) = true ∧ key = otherKey := by
  obtain ⟨cell, atPlace, rfl⟩ := Option.map_eq_some_iff.mp found
  obtain ⟨otherCell, atOther, rfl⟩ := Option.map_eq_some_iff.mp foundToo
  exact sound.unique atPlace atOther same

theorem Sound.serial_lt
    (sound : store.Sound)
    (found : store.lookup statement group key = some handle) :
    handle.serial < store.next := by
  obtain ⟨cell, atPlace, rfl⟩ := Option.map_eq_some_iff.mp found
  exact sound.fresh atPlace

/-- What is read through handles that are found at places is there. -/
theorem Sound.answer_of_uses
    {calls : List StoreCall}
    (sound : store.Sound)
    (uses : ∀ call ∈ calls, ∃ handle statement group key,
      call.Uses handle ∧ store.lookup statement group key = some handle) :
    ∀ entry ∈ store.trace calls, entry.2 ≠ .result none := by
  induction calls generalizing store with
  | nil =>
      exact fun _ member => nomatch member
  | cons call rest inductionHypothesis =>
      obtain ⟨handle, statement, group, key, isUse, found⟩ := uses call List.mem_cons_self
      intro entry member
      rcases List.mem_cons.mp member with rfl | later
      · obtain ⟨state, live⟩ := sound.get?_of_lookup found
        cases call with
        | enter used row occasion => exact nofun
        | leave used row occasion => exact nofun
        | read used handler =>
            cases isUse
            simp [StateStore.perform, read?, live]
        | _ => cases isUse
      · refine inductionHypothesis (sound.perform call) ?_ entry later
        intro next member
        obtain ⟨nextHandle, other, otherGroup, otherKey, nextUse, nextFound⟩ :=
          uses next (List.mem_cons_of_mem _ member)
        refine ⟨nextHandle, other, otherGroup, otherKey, nextUse, ?_⟩
        rw [lookup_perform_of_uses isUse]
        exact nextFound

/-- Only reading can find nothing. -/
theorem answer_of_no_read
    {calls : List StoreCall}
    (noRead : ∀ call ∈ calls, ∀ handle handler, call ≠ .read handle handler) :
    ∀ entry ∈ store.trace calls, entry.2 ≠ .result none := by
  induction calls generalizing store with
  | nil =>
      exact fun _ member => nomatch member
  | cons call rest inductionHypothesis =>
      intro entry member
      rcases List.mem_cons.mp member with rfl | later
      · have first := noRead call List.mem_cons_self
        cases call with
        | read handle handler => exact absurd rfl (first handle handler)
        | _ => exact nofun
      · exact inductionHypothesis (fun call member => noRead call (List.mem_cons_of_mem _ member))
          entry later

/-- All handles are found where they were, and new ones only at some keys of a group. -/
structure Grows (store later : StateStore) (statement : StatementId) (group : GroupKey)
    (keys : List StateKey) : Prop where
  next : store.next ≤ later.next
  kept :
    ∀ {other otherGroup key handle},
      store.lookup other otherGroup key = some handle →
        later.lookup other otherGroup key = some handle
  added :
    ∀ {other otherGroup key handle},
      later.lookup other otherGroup key = some handle →
        store.lookup other otherGroup key = some handle ∨
          other = statement ∧ (group == otherGroup) = true ∧ key ∈ keys ∧
            store.next ≤ handle.serial

namespace Grows

theorem refl
    (store : StateStore)
    (statement : StatementId)
    (group : GroupKey)
    (keys : List StateKey) :
    store.Grows store statement group keys where
  next := Nat.le_refl _
  kept := id
  added := .inl

theorem trans
    {middle later : StateStore}
    {keys others : List StateKey}
    (grows : store.Grows middle statement group keys)
    (further : middle.Grows later statement group others) :
    store.Grows later statement group (keys ++ others) where
  next := Nat.le_trans grows.next further.next
  kept := fun found => further.kept (grows.kept found)
  added := by
    intro other otherGroup key handle found
    rcases further.added found with before | ⟨isStatement, inGroup, isKey, new⟩
    · rcases grows.added before with early | ⟨isStatement, inGroup, isKey, new⟩
      · exact .inl early
      · exact .inr ⟨isStatement, inGroup, List.mem_append_left _ isKey, new⟩
    · exact .inr ⟨isStatement, inGroup, List.mem_append_right _ isKey,
        Nat.le_trans grows.next new⟩

end Grows

/-- Asking for a state adds its handle at most. -/
theorem Sound.grows_obtain
    (sound : store.Sound)
    (statement : StatementId)
    (group : GroupKey)
    (handler : AggregateHandler)
    (occasion : Occasion) :
    store.Grows (store.obtain statement group handler occasion).1 statement group
      [handler.key] := by
  obtain ⟨cell, _, same⟩ | ⟨state, absent, _, same⟩ | ⟨report, _, _, same⟩ :=
    sound.obtain_cases statement group handler occasion <;> rw [same]
  · exact .refl _ _ _ _
  · have places : ∀ {other otherGroup key},
        (store.add statement group handler.key state).lookup other otherGroup key =
          if sameGroup statement group other otherGroup && handler.key == key then
            some ⟨key, store.next⟩
          else store.lookup other otherGroup key := by
      intro other otherGroup key
      rw [lookup, cell?_add, lookup]
      split <;> rfl
    refine ⟨Nat.le_succ _, ?_, ?_⟩
    · intro other otherGroup key handle found
      rw [places, if_neg, found]
      intro atPlace
      simp only [sameGroup, Bool.and_eq_true, beq_iff_eq] at atPlace
      obtain ⟨⟨rfl, inGroup⟩, rfl⟩ := atPlace
      rw [lookup, ← cell?_congr inGroup, absent] at found
      cases found
    · intro other otherGroup key handle found
      rw [places] at found
      split at found
      next atPlace =>
          simp only [sameGroup, Bool.and_eq_true, beq_iff_eq] at atPlace
          obtain ⟨⟨rfl, inGroup⟩, rfl⟩ := atPlace
          cases found
          exact .inr ⟨rfl, inGroup, List.mem_singleton_self _, Nat.le_refl _⟩
      next => exact .inl found
  · have places : ∀ {other otherGroup key},
        (store.hold statement).lookup other otherGroup key = store.lookup other otherGroup key := by
      intro other otherGroup key
      rw [lookup, cell?_hold, lookup]
    exact ⟨Nat.le_refl _, fun found => places.trans found, fun found => .inl (places ▸ found)⟩

/-- The handle of a state that was asked for is found at its place. -/
theorem Sound.lookup_obtain
    (sound : store.Sound)
    {handler : AggregateHandler}
    {occasion : Occasion}
    (given : (store.obtain statement group handler occasion).2 = .ok handle) :
    (store.obtain statement group handler occasion).1.lookup statement group handler.key =
      some handle := by
  obtain ⟨cell, found, same⟩ | ⟨state, absent, _, same⟩ | ⟨report, _, _, same⟩ :=
    sound.obtain_cases statement group handler occasion <;> rw [same] at given ⊢
  · cases given
    rw [lookup, found]
    rfl
  · cases given
    rw [lookup, cell?_add, if_pos (by simp [sameGroup])]
    rfl
  · cases given

end StateStore

end EventQuery
