import EventQuery.Aggregate.Store
import EventQuery.Proofs.Store.Entries

namespace EventQuery

namespace StateStore

/-!
# Places of states

Whatever the tables within tables look like, a store is known by the state at each place.  This
module tells, for each operation, the states at all places afterwards from those before.
-/

/-- Whether two groups of statements are the same. -/
def sameGroup (statement : StatementId) (group : GroupKey) (other : StatementId)
    (otherGroup : GroupKey) : Bool :=
  statement == other && group == otherGroup

section Tables

variable {store : StateStore} {statement other : StatementId} {group otherGroup : GroupKey}
  {key : StateKey} {states : GroupStates}

theorem groupsOf_setStates :
    (store.setStates statement group states).groupsOf other =
      if statement = other then (store.groupsOf statement).put group states
      else store.groupsOf other := by
  rw [groupsOf, setStates, Table.find?_put]
  by_cases same : statement = other <;> simp [same, groupsOf]

theorem statesOf_setStates :
    (store.setStates statement group states).statesOf other otherGroup =
      if sameGroup statement group other otherGroup then states
      else store.statesOf other otherGroup := by
  rw [statesOf, groupsOf_setStates, sameGroup]
  by_cases same : statement = other
  · rw [if_pos same, Table.find?_put]
    cases hit : group == otherGroup <;> simp [same, statesOf]
  · simp [same, statesOf]

/-- Equal groups hold the same states. -/
theorem statesOf_congr
    (same : (group == otherGroup) = true) :
    store.statesOf statement group = store.statesOf statement otherGroup := by
  rw [statesOf, statesOf, Table.find?_congr same]

/-- Holding a group changes no place. -/
theorem cell?_openGroup :
    (store.openGroup statement group).cell? other otherGroup key =
      store.cell? other otherGroup key := by
  rw [cell?, cell?, openGroup, statesOf_setStates]
  split
  next same =>
      rw [sameGroup, Bool.and_eq_true, beq_iff_eq] at same
      rw [same.1, statesOf_congr same.2]
  next =>
      rfl

/-- A group with states stays. -/
theorem discardGroup_of_filled
    (filled : (store.groupsOf statement).find? group ≠ some []) :
    store.discardGroup statement group = store := by
  rw [discardGroup]
  split
  next empty => exact absurd empty filled
  next => rfl

/-- A new state is at its place, and all other places are as before. -/
theorem cell?_add
    {otherKey : StateKey}
    {state : AggregateState} :
    (store.add statement group key state).cell? other otherGroup otherKey =
      if sameGroup statement group other otherGroup && key == otherKey then
        some ⟨store.next, state⟩
      else store.cell? other otherGroup otherKey := by
  change ((store.setStates statement group _).statesOf other otherGroup).find? otherKey = _
  rw [statesOf_setStates, cell?]
  cases same : sameGroup statement group other otherGroup with
  | false =>
      rfl
  | true =>
      rw [sameGroup, Bool.and_eq_true, beq_iff_eq] at same
      rw [if_pos rfl, Table.find?_put, Bool.true_and, same.1, statesOf_congr same.2]

theorem groupsOf_replace
    {serial : Nat}
    {state : AggregateState} :
    (store.replace serial state).groupsOf statement =
      (store.groupsOf statement).mapContents fun states =>
        states.mapContents fun cell => cell.replace serial state := by
  rw [groupsOf, replace, Table.find?_mapContents, groupsOf]
  cases store.statements.find? statement <;> rfl

theorem statesOf_replace
    {serial : Nat}
    {state : AggregateState} :
    (store.replace serial state).statesOf statement group =
      (store.statesOf statement group).mapContents fun cell => cell.replace serial state := by
  rw [statesOf, groupsOf_replace, Table.find?_mapContents, statesOf]
  cases (store.groupsOf statement).find? group <;> rfl

/-- Replacing the state of a number changes nothing else at any place. -/
theorem cell?_replace
    {serial : Nat}
    {state : AggregateState} :
    (store.replace serial state).cell? statement group key =
      (store.cell? statement group key).map fun cell => cell.replace serial state := by
  rw [cell?, statesOf_replace, Table.find?_mapContents, cell?]

theorem groupsOf_releaseGroup :
    (store.releaseGroup statement group).1.groupsOf other =
      if statement = other then (store.groupsOf statement).erase group
      else store.groupsOf other := by
  rw [releaseGroup]
  split
  next absent =>
      split
      next same =>
          rw [← same, groupsOf, absent]
          rfl
      next =>
          rfl
  next groups found =>
      rw [groupsOf, Table.find?_put]
      by_cases same : statement = other
      · rw [groupsOf, found]
        simp [same]
      · simp [same, groupsOf]

theorem statesOf_releaseGroup :
    (store.releaseGroup statement group).1.statesOf other otherGroup =
      if sameGroup statement group other otherGroup then []
      else store.statesOf other otherGroup := by
  rw [statesOf, groupsOf_releaseGroup, sameGroup, statesOf]
  by_cases same : statement = other
  · rw [if_pos same, Table.find?_erase, ← same]
    cases hit : group == otherGroup <;> simp
  · simp [same]

/-- A group that is released has no states. -/
theorem cell?_releaseGroup :
    (store.releaseGroup statement group).1.cell? other otherGroup key =
      if sameGroup statement group other otherGroup then none
      else store.cell? other otherGroup key := by
  rw [cell?, statesOf_releaseGroup, cell?]
  split <;> rfl

theorem groupsOf_releaseStatement :
    (store.releaseStatement statement).1.groupsOf other =
      if statement = other then [] else store.groupsOf other := by
  rw [groupsOf, releaseStatement, Table.find?_erase]
  by_cases same : statement = other <;> simp [same, groupsOf]

theorem statesOf_releaseStatement :
    (store.releaseStatement statement).1.statesOf other group =
      if statement = other then [] else store.statesOf other group := by
  rw [statesOf, groupsOf_releaseStatement]
  split <;> rfl

/-- A statement that is released has no states. -/
theorem cell?_releaseStatement :
    (store.releaseStatement statement).1.cell? other group key =
      if statement = other then none else store.cell? other group key := by
  rw [cell?, statesOf_releaseStatement]
  split <;> rfl

/-- Equal groups have the same states at their places. -/
theorem cell?_congr
    (same : (group == otherGroup) = true) :
    store.cell? statement group key = store.cell? statement otherGroup key := by
  rw [cell?, cell?, statesOf_congr same]

end Tables

/-- Hold a statement, without groups when it has none. -/
def hold (store : StateStore) (statement : StatementId) : StateStore :=
  { store with statements := store.statements.put statement (store.groupsOf statement) }

section Obtaining

variable {store : StateStore} {statement : StatementId} {group : GroupKey}
  {handler : AggregateHandler} {occasion : Occasion}

/-- A group with a state is held already. -/
theorem openGroup_of_cell
    {key : StateKey}
    {cell : StateCell}
    (present : store.cell? statement group key = some cell) :
    store.openGroup statement group = store := by
  have held : (store.groupsOf statement).find? group = some (store.statesOf statement group) := by
    rw [statesOf]
    cases found : (store.groupsOf statement).find? group with
    | some states => rfl
    | none => simp [cell?, statesOf, found, Table.find?] at present
  have known : store.statements.find? statement = some (store.groupsOf statement) := by
    rw [groupsOf]
    cases found : store.statements.find? statement with
    | some groups => rfl
    | none => simp [groupsOf, found, Table.find?] at held
  rw [openGroup, setStates, Table.put_eq_self held, Table.put_eq_self known]

/-- The state at a place is handed out when there is one. -/
theorem obtain_of_present
    {cell : StateCell}
    (present : store.cell? statement group handler.key = some cell) :
    store.obtain statement group handler occasion = (store, .ok ⟨handler.key, cell.serial⟩) := by
  rw [obtain, openGroup_of_cell present]
  simp only [present]

/-- Where there is no state, a new one is put at the place. -/
theorem obtain_of_created
    {state : AggregateState}
    (absent : store.cell? statement group handler.key = none)
    (created : handler.create occasion statement group = .ok state) :
    store.obtain statement group handler occasion =
      (store.add statement group handler.key state, .ok ⟨handler.key, store.next⟩) := by
  have same : (store.openGroup statement group).add statement group handler.key state =
      store.add statement group handler.key state := by
    have states : (store.openGroup statement group).statesOf statement group =
        store.statesOf statement group := by
      rw [openGroup, statesOf_setStates]
      split <;> rfl
    rw [add, add, states, setStates, setStates, openGroup, groupsOf_setStates, if_pos rfl,
      Table.put_put]
    simp only [setStates, Table.put_put]
  rw [obtain]
  simp only [cell?_openGroup, absent, created, same]
  rfl

theorem groupsOf_hold
    {other : StatementId} :
    (store.hold statement).groupsOf other = store.groupsOf other := by
  rw [groupsOf, hold, Table.find?_put]
  by_cases same : statement = other <;> simp [same, groupsOf]

/-- Holding a statement changes no place. -/
theorem cell?_hold
    {other : StatementId}
    {key : StateKey} :
    (store.hold statement).cell? other group key = store.cell? other group key := by
  rw [cell?, statesOf, groupsOf_hold]
  rfl

/-- Where a state cannot be created, nothing is held that was not held before. -/
theorem obtain_of_failed
    {report : String}
    (filled : (store.groupsOf statement).find? group ≠ some [])
    (absent : store.cell? statement group handler.key = none)
    (failed : handler.create occasion statement group = .error report) :
    store.obtain statement group handler occasion =
      (store.hold statement, .error (.creationFailed handler.function report)) := by
  have same : (store.openGroup statement group).discardGroup statement group =
      store.hold statement := by
    cases found : (store.groupsOf statement).find? group with
    | none =>
        have states : store.statesOf statement group = [] := by
          rw [statesOf, found]
          rfl
        have empty : ((store.openGroup statement group).groupsOf statement).find? group =
            some [] := by
          rw [openGroup, groupsOf_setStates, if_pos rfl, Table.find?_put_self, states]
        rw [discardGroup]
        simp only [empty]
        rw [openGroup, groupsOf_setStates, if_pos rfl, Table.erase_put found]
        simp only [setStates, Table.put_put, hold]
    | some states =>
        have unchanged : (store.groupsOf statement).put group (store.statesOf statement group) =
            store.groupsOf statement :=
          Table.put_eq_self (by rw [statesOf, found]; rfl)
        rw [discardGroup_of_filled]
        · rw [openGroup, setStates, unchanged, hold]
        · rw [openGroup, groupsOf_setStates, if_pos rfl, unchanged]
          exact filled
  rw [obtain]
  simp only [cell?_openGroup, absent, failed, same]

end Obtaining

end StateStore

end EventQuery
