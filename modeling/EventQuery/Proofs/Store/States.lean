import EventQuery.Proofs.Store.Lookups

namespace EventQuery

namespace StateStore

/-!
# States at places

What a call of a sound store makes of the states at all places, whatever their numbers are.  An
update changes the state at the place where its handle is found, and a state that is asked for is put
at its place when it is missing.  All other places keep their states.
-/

/-- The state at a place. -/
def stateAt (store : StateStore) (statement : StatementId) (group : GroupKey) (key : StateKey) :
    Option AggregateState :=
  (store.cell? statement group key).map StateCell.state

variable {store : StateStore} {statement other : StatementId} {group otherGroup : GroupKey}
  {key otherKey : StateKey} {handle : StateHandle}

theorem stateAt_isSome :
    (store.stateAt statement group key).isSome = (store.lookup statement group key).isSome := by
  rw [stateAt, lookup, Option.isSome_map, Option.isSome_map]

theorem stateAt_congr
    (same : (group == otherGroup) = true) :
    store.stateAt statement group key = store.stateAt statement otherGroup key := by
  rw [stateAt, stateAt, cell?_congr same]

theorem stateAt_releaseGroup :
    (store.releaseGroup statement group).1.stateAt other otherGroup key =
      if sameGroup statement group other otherGroup then none
      else store.stateAt other otherGroup key := by
  rw [stateAt, cell?_releaseGroup, stateAt]
  split <;> rfl

theorem stateAt_releaseStatement :
    (store.releaseStatement statement).1.stateAt other group key =
      if statement = other then none else store.stateAt other group key := by
  rw [stateAt, cell?_releaseStatement, stateAt]
  split <;> rfl

/-- The state of a handle is the one at its place. -/
theorem Sound.get?_eq_stateAt
    (sound : store.Sound)
    (found : store.lookup statement group key = some handle) :
    store.get? handle = store.stateAt statement group key := by
  obtain ⟨cell, atPlace, rfl⟩ := Option.map_eq_some_iff.mp found
  rw [sound.get?_of_cell atPlace rfl, stateAt, atPlace]
  rfl

/-- The result in the state of a handle is the one in the state at its place. -/
theorem Sound.read?_eq_stateAt
    (sound : store.Sound)
    (found : store.lookup statement group key = some handle)
    (handler : AggregateHandler) :
    store.read? handle handler = (store.stateAt statement group key).map handler.read := by
  rw [read?, sound.get?_eq_stateAt found]

/-- An update tells of the state at the place of its handle, and changes that state only. -/
theorem Sound.update_at
    (sound : store.Sound)
    (found : store.lookup statement group key = some handle)
    (change : AggregateState → AggregateState × Option Fault) :
    ∃ state, store.stateAt statement group key = some state ∧
      (store.update handle change).2 = (change state).2 ∧
      ∀ other otherGroup otherKey,
        (store.update handle change).1.stateAt other otherGroup otherKey =
          if sameGroup statement group other otherGroup && key == otherKey then
            some (change state).1
          else store.stateAt other otherGroup otherKey := by
  obtain ⟨cell, atPlace, rfl⟩ := Option.map_eq_some_iff.mp found
  have live : store.get? ⟨key, cell.serial⟩ = some cell.state := sound.get?_of_cell atPlace rfl
  refine ⟨cell.state, ?_, ?_, fun other otherGroup otherKey => ?_⟩
  · rw [stateAt, atPlace]
    rfl
  · rw [StateStore.update, live]
  · rw [StateStore.update, live]
    dsimp only
    rw [stateAt, cell?_replace, stateAt]
    split
    next same =>
        simp only [sameGroup, Bool.and_eq_true, beq_iff_eq] at same
        obtain ⟨⟨rfl, inGroup⟩, rfl⟩ := same
        rw [← cell?_congr inGroup, atPlace]
        simp [StateCell.replace]
    next different =>
        rcases isCell : store.cell? other otherGroup otherKey with _ | otherCell
        · rfl
        · have unlike : otherCell.serial ≠ cell.serial := by
            intro same
            obtain ⟨rfl, inGroup, rfl⟩ := sound.unique atPlace isCell same.symm
            exact different (by simp [sameGroup, inGroup])
          simp [StateCell.replace, unlike]

/-- What is handed out when the state at a place is asked for: the one there, or else a new one. -/
def demanded (store : StateStore) (statement : StatementId) (group : GroupKey)
    (handler : AggregateHandler) (occasion : Occasion) : Except String AggregateState :=
  match store.stateAt statement group handler.key with
  | some state => .ok state
  | none => handler.create occasion statement group

/-- A state that is handed out is at its place from then on, and the others are as before. -/
theorem Sound.obtain_of_demanded
    (sound : store.Sound)
    {handler : AggregateHandler}
    {occasion : Occasion}
    {state : AggregateState}
    (isDemanded : store.demanded statement group handler occasion = .ok state) :
    ∃ obtained handle,
      store.obtain statement group handler occasion = (obtained, .ok handle) ∧
        ∀ other otherGroup otherKey,
          obtained.stateAt other otherGroup otherKey =
            if sameGroup statement group other otherGroup && handler.key == otherKey then
              some state
            else store.stateAt other otherGroup otherKey := by
  rw [demanded, stateAt] at isDemanded
  obtain ⟨cell, present, same⟩ | ⟨created, absent, isCreated, same⟩ | ⟨report, absent, failed, _⟩ :=
    sound.obtain_cases statement group handler occasion
  · rw [present] at isDemanded
    cases isDemanded
    refine ⟨store, _, same, fun other otherGroup otherKey => ?_⟩
    split
    next atPlace =>
        simp only [sameGroup, Bool.and_eq_true, beq_iff_eq] at atPlace
        obtain ⟨⟨rfl, inGroup⟩, rfl⟩ := atPlace
        rw [← stateAt_congr inGroup, stateAt, present]
        rfl
    next => rfl
  · rw [absent] at isDemanded
    cases isCreated.symm.trans isDemanded
    refine ⟨_, _, same, fun other otherGroup otherKey => ?_⟩
    rw [stateAt, cell?_add, stateAt]
    split <;> rfl
  · rw [absent] at isDemanded
    cases failed.symm.trans isDemanded

/-- A creation that fails is reported, and all places are as before. -/
theorem Sound.obtain_of_refused
    (sound : store.Sound)
    {handler : AggregateHandler}
    {occasion : Occasion}
    {report : String}
    (isRefused : store.demanded statement group handler occasion = .error report) :
    ∃ obtained,
      store.obtain statement group handler occasion =
          (obtained, .error (.creationFailed handler.function report)) ∧
        ∀ other otherGroup otherKey,
          obtained.stateAt other otherGroup otherKey =
            store.stateAt other otherGroup otherKey := by
  rw [demanded, stateAt] at isRefused
  obtain ⟨cell, present, _⟩ | ⟨created, absent, isCreated, _⟩ | ⟨held, absent, failed, same⟩ :=
    sound.obtain_cases statement group handler occasion
  · rw [present] at isRefused
    cases isRefused
  · rw [absent] at isRefused
    cases isCreated.symm.trans isRefused
  · rw [absent] at isRefused
    cases failed.symm.trans isRefused
    refine ⟨_, same, fun other otherGroup otherKey => ?_⟩
    rw [stateAt, cell?_hold, stateAt]

/-- Whether some groups of statements have the same states in two stores. -/
def SameStates (seen : StatementId → GroupKey → Prop) (left store : StateStore) : Prop :=
  ∀ statement group, seen statement group → ∀ key,
    left.stateAt statement group key = store.stateAt statement group key

/-- Whether a group of a statement is none of some groups of statements. -/
def Unseen (seen : StatementId → GroupKey → Prop) (statement : StatementId) (group : GroupKey) :
    Prop :=
  ∀ other, (group == other) = true → ¬ seen statement other

/-- A place of a group that is not among some groups is not a place of these. -/
theorem Unseen.sameGroup_eq_false
    {seen : StatementId → GroupKey → Prop}
    (unseen : Unseen seen statement group)
    (isSeen : seen other otherGroup) :
    sameGroup statement group other otherGroup = false := by
  rw [Bool.eq_false_iff]
  intro same
  simp only [sameGroup, Bool.and_eq_true, beq_iff_eq] at same
  exact unseen otherGroup same.2 (same.1 ▸ isSeen)

namespace SameStates

variable {seen : StatementId → GroupKey → Prop} {left middle : StateStore}

theorem refl (store : StateStore) : SameStates seen store store := fun _ _ _ _ => rfl

theorem trans
    (later : SameStates seen left middle)
    (earlier : SameStates seen middle store) :
    SameStates seen left store :=
  fun statement group isSeen key =>
    (later statement group isSeen key).trans (earlier statement group isSeen key)

theorem update
    (sound : store.Sound)
    (unseen : Unseen seen statement group)
    (found : store.lookup statement group key = some handle)
    (change : AggregateState → AggregateState × Option Fault) :
    SameStates seen (store.update handle change).1 store := by
  obtain ⟨_, _, _, places⟩ := sound.update_at found change
  intro other otherGroup isSeen otherKey
  rw [places, unseen.sameGroup_eq_false isSeen]
  rfl

theorem obtain
    (sound : store.Sound)
    (unseen : Unseen seen statement group)
    (handler : AggregateHandler)
    (occasion : Occasion) :
    SameStates seen (store.obtain statement group handler occasion).1 store := by
  intro other otherGroup isSeen otherKey
  rcases demanding : store.demanded statement group handler occasion with report | state
  · obtain ⟨_, same, places⟩ := sound.obtain_of_refused demanding
    rw [same, places]
  · obtain ⟨_, _, same, places⟩ := sound.obtain_of_demanded demanding
    rw [same, places, unseen.sameGroup_eq_false isSeen]
    rfl

theorem releaseGroup
    (unseen : Unseen seen statement group) :
    SameStates seen (store.releaseGroup statement group).1 store := by
  intro other otherGroup isSeen otherKey
  rw [stateAt_releaseGroup, unseen.sameGroup_eq_false isSeen]
  rfl

theorem releaseStatement
    (unseen : ∀ group, ¬ seen statement group) :
    SameStates seen (store.releaseStatement statement).1 store := by
  intro other group isSeen key
  rw [stateAt_releaseStatement, if_neg]
  rintro rfl
  exact unseen group isSeen

/-- Uses of handles leave all places where none of the handles is found. -/
theorem performAll_of_uses
    {calls : List StoreCall}
    (sound : store.Sound)
    (uses :
      ∀ call ∈ calls, ∃ handle statement group key, call.Uses handle ∧
        store.lookup statement group key = some handle ∧ Unseen seen statement group) :
    SameStates seen (store.performAll calls) store := by
  induction calls generalizing store with
  | nil => exact refl store
  | cons call rest inductionHypothesis =>
      obtain ⟨handle, statement, group, key, isUse, found, unseen⟩ := uses call List.mem_cons_self
      have first : SameStates seen (store.perform call).1 store := by
        cases call with
        | enter used row occasion =>
            cases isUse
            exact update sound unseen found _
        | leave used row occasion =>
            cases isUse
            exact update sound unseen found _
        | read used handler => exact refl store
        | _ => cases isUse
      refine (inductionHypothesis (sound.perform call) fun next member => ?_).trans first
      obtain ⟨nextHandle, other, otherGroup, otherKey, nextUse, nextFound, nextUnseen⟩ :=
        uses next (List.mem_cons_of_mem _ member)
      exact ⟨nextHandle, other, otherGroup, otherKey, nextUse,
        (lookup_perform_of_uses isUse).trans nextFound, nextUnseen⟩

end SameStates

end StateStore

end EventQuery
