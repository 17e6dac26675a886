import EventQuery.Proofs.Store.Places

namespace EventQuery

namespace StateStore

/-!
# Sound stores

In a sound store no key is there twice, no group is held without states, and every live state has a
number of its own, which was given out before.  Each operation keeps a store sound.  In a sound store
a handle names the state whose number it has, at the one place where that state is.
-/

/-- No key is there twice, and no group is held without states. -/
structure Tidy (store : StateStore) : Prop where
  statements : store.statements.Distinct
  groups : ∀ statement, (store.groupsOf statement).Distinct
  states : ∀ statement group, (store.statesOf statement group).Distinct
  filled : ∀ statement group, (store.groupsOf statement).find? group ≠ some []

/-- A tidy store in which every state has a number of its own, below the next one. -/
structure Sound (store : StateStore) : Prop extends Tidy store where
  fresh :
    ∀ {statement group key cell},
      store.cell? statement group key = some cell → cell.serial < store.next
  unique :
    ∀ {statement group key cell other otherGroup otherKey otherCell},
      store.cell? statement group key = some cell →
        store.cell? other otherGroup otherKey = some otherCell →
          cell.serial = otherCell.serial →
            statement = other ∧ (group == otherGroup) = true ∧ key = otherKey

variable {store : StateStore} {statement : StatementId} {group : GroupKey} {key : StateKey}

theorem Tidy.empty : empty.Tidy where
  statements := .nil
  groups := fun _ => .nil
  states := fun _ _ => .nil
  filled := fun _ _ => by simp [groupsOf, StateStore.empty, Table.find?]

theorem Tidy.add
    (tidy : store.Tidy)
    (state : AggregateState) :
    (store.add statement group key state).Tidy where
  statements := tidy.statements.put _ _
  groups := by
    intro other
    change ((store.setStates statement group _).groupsOf other).Distinct
    rw [groupsOf_setStates]
    split
    next => exact (tidy.groups statement).put _ _
    next => exact tidy.groups other
  states := by
    intro other otherGroup
    change ((store.setStates statement group _).statesOf other otherGroup).Distinct
    rw [statesOf_setStates]
    split
    next => exact (tidy.states statement group).put _ _
    next => exact tidy.states other otherGroup
  filled := by
    intro other otherGroup
    change ((store.setStates statement group _).groupsOf other).find? otherGroup ≠ some []
    rw [groupsOf_setStates]
    split
    next =>
        rw [Table.find?_put]
        split
        next =>
            intro isEmpty
            exact Table.put_ne_nil (Option.some.inj isEmpty)
        next => exact tidy.filled statement otherGroup
    next => exact tidy.filled other otherGroup

theorem Tidy.replace
    (tidy : store.Tidy)
    (serial : Nat)
    (state : AggregateState) :
    (store.replace serial state).Tidy where
  statements := tidy.statements.mapContents _
  groups := fun other => by
    rw [groupsOf_replace]
    exact (tidy.groups other).mapContents _
  states := fun other otherGroup => by
    rw [statesOf_replace]
    exact (tidy.states other otherGroup).mapContents _
  filled := by
    intro other otherGroup isEmpty
    rw [groupsOf_replace, Table.find?_mapContents, Option.map_eq_some_iff] at isEmpty
    obtain ⟨states, found, empty⟩ := isEmpty
    rw [List.map_eq_nil_iff.mp empty] at found
    exact tidy.filled other otherGroup found

theorem Tidy.releaseGroup
    (tidy : store.Tidy)
    (statement : StatementId)
    (group : GroupKey) :
    (store.releaseGroup statement group).1.Tidy where
  statements := by
    rw [StateStore.releaseGroup]
    split
    next => exact tidy.statements
    next => exact tidy.statements.put _ _
  groups := by
    intro other
    rw [groupsOf_releaseGroup]
    split
    next => exact (tidy.groups statement).erase group
    next => exact tidy.groups other
  states := by
    intro other otherGroup
    rw [statesOf_releaseGroup]
    split
    next => exact .nil
    next => exact tidy.states other otherGroup
  filled := by
    intro other otherGroup
    rw [groupsOf_releaseGroup]
    split
    next =>
        rw [Table.find?_erase]
        split
        next => simp
        next => exact tidy.filled statement otherGroup
    next => exact tidy.filled other otherGroup

theorem Tidy.releaseStatement
    (tidy : store.Tidy)
    (statement : StatementId) :
    (store.releaseStatement statement).1.Tidy where
  statements := tidy.statements.erase statement
  groups := by
    intro other
    rw [groupsOf_releaseStatement]
    split
    next => exact .nil
    next => exact tidy.groups other
  states := by
    intro other otherGroup
    rw [statesOf_releaseStatement]
    split
    next => exact .nil
    next => exact tidy.states other otherGroup
  filled := by
    intro other otherGroup
    rw [groupsOf_releaseStatement]
    split
    next => simp [Table.find?]
    next => exact tidy.filled other otherGroup

theorem Tidy.hold
    (tidy : store.Tidy)
    (statement : StatementId) :
    (store.hold statement).Tidy where
  statements := tidy.statements.put _ _
  groups := fun other => by
    rw [groupsOf_hold]
    exact tidy.groups other
  states := fun other otherGroup => by
    rw [statesOf, groupsOf_hold]
    exact tidy.states other otherGroup
  filled := fun other otherGroup => by
    rw [groupsOf_hold]
    exact tidy.filled other otherGroup

/-- The cells of a tidy store are the states at its places. -/
theorem Tidy.mem_cells
    (tidy : store.Tidy)
    {cell : StateCell} :
    cell ∈ store.cells ↔ ∃ statement group key, store.cell? statement group key = some cell := by
  simp only [cells, List.mem_flatMap, List.mem_map, Prod.exists]
  constructor
  · rintro ⟨statement, groups, inStatements, group, states, inGroups, key, held, inStates, rfl⟩
    have isGroups : store.groupsOf statement = groups := by
      rw [groupsOf, tidy.statements.find?_eq_some inStatements]
      rfl
    have isStates : store.statesOf statement group = states := by
      rw [statesOf, (tidy.groups statement).find?_eq_some (isGroups ▸ inGroups)]
      rfl
    exact ⟨statement, group, key,
      (tidy.states statement group).find?_eq_some (isStates ▸ inStates)⟩
  · rintro ⟨statement, group, key, found⟩
    obtain ⟨heldKey, _, inStates⟩ := Table.mem_of_find? found
    have known : ∃ groups, store.statements.find? statement = some groups := by
      cases isKnown : store.statements.find? statement with
      | some groups => exact ⟨groups, rfl⟩
      | none => simp [cell?, statesOf, groupsOf, isKnown, Table.find?] at found
    obtain ⟨groups, isGroups⟩ := known
    have held : ∃ states, groups.find? group = some states := by
      cases isHeld : groups.find? group with
      | some states => exact ⟨states, rfl⟩
      | none => simp [cell?, statesOf, groupsOf, isGroups, isHeld, Table.find?] at found
    obtain ⟨states, isStates⟩ := held
    obtain ⟨heldStatement, _, inStatements⟩ := Table.mem_of_find? isGroups
    obtain ⟨heldGroup, _, inGroups⟩ := Table.mem_of_find? isStates
    have same : store.statesOf statement group = states := by
      rw [statesOf, groupsOf, isGroups, Option.getD_some, isStates, Option.getD_some]
    exact ⟨heldStatement, groups, inStatements, heldGroup, states, inGroups, heldKey, cell,
      same ▸ inStates, rfl⟩

theorem Sound.empty : empty.Sound where
  toTidy := .empty
  fresh := by simp [cell?, statesOf, groupsOf, StateStore.empty, Table.find?]
  unique := by simp [cell?, statesOf, groupsOf, StateStore.empty, Table.find?]

/-- A store is sound when all its states are those of a sound one, with the same numbers. -/
theorem Sound.of_cells
    {other : StateStore}
    (sound : store.Sound)
    (tidy : other.Tidy)
    (next : store.next ≤ other.next)
    (cells :
      ∀ {statement group key cell}, other.cell? statement group key = some cell →
        ∃ old, store.cell? statement group key = some old ∧ old.serial = cell.serial) :
    other.Sound where
  toTidy := tidy
  fresh := by
    intro statement group key cell found
    obtain ⟨old, foundOld, same⟩ := cells found
    have := sound.fresh foundOld
    omega
  unique := by
    intro statement group key cell _ _ _ otherCell found foundOther equal
    obtain ⟨old, foundOld, same⟩ := cells found
    obtain ⟨otherOld, foundOtherOld, sameOther⟩ := cells foundOther
    exact sound.unique foundOld foundOtherOld (by omega)

theorem Sound.add
    (sound : store.Sound)
    (statement : StatementId)
    (group : GroupKey)
    (key : StateKey)
    (state : AggregateState) :
    (store.add statement group key state).Sound where
  toTidy := sound.toTidy.add state
  fresh := by
    intro other otherGroup otherKey cell found
    change cell.serial < store.next + 1
    rw [cell?_add] at found
    split at found
    next =>
        cases found
        exact Nat.lt_succ_self _
    next => exact Nat.lt_succ_of_lt (sound.fresh found)
  unique := by
    intro first firstGroup firstKey firstCell second secondGroup secondKey secondCell found foundToo
      equal
    rw [cell?_add] at found foundToo
    split at found <;> split at foundToo
    next same sameToo =>
        simp only [sameGroup, Bool.and_eq_true, beq_iff_eq] at same sameToo
        obtain ⟨⟨rfl, inGroup⟩, rfl⟩ := same
        obtain ⟨⟨rfl, inGroupToo⟩, rfl⟩ := sameToo
        exact ⟨rfl, BEq.trans (BEq.symm inGroup) inGroupToo, rfl⟩
    next =>
        cases found
        exact absurd equal (Nat.ne_of_gt (sound.fresh foundToo))
    next =>
        cases foundToo
        exact absurd equal (Nat.ne_of_lt (sound.fresh found))
    next => exact sound.unique found foundToo equal

theorem StateCell.serial_replace
    (cell : StateCell)
    (serial : Nat)
    (state : AggregateState) :
    (cell.replace serial state).serial = cell.serial := by
  rw [StateCell.replace]
  split <;> rfl

theorem Sound.replace
    (sound : store.Sound)
    (serial : Nat)
    (state : AggregateState) :
    (store.replace serial state).Sound := by
  refine sound.of_cells (sound.toTidy.replace serial state) (Nat.le_refl _) fun found => ?_
  rw [cell?_replace, Option.map_eq_some_iff] at found
  obtain ⟨old, foundOld, rfl⟩ := found
  exact ⟨old, foundOld, (StateCell.serial_replace old serial state).symm⟩

theorem Sound.releaseGroup
    (sound : store.Sound)
    (statement : StatementId)
    (group : GroupKey) :
    (store.releaseGroup statement group).1.Sound := by
  have next : (store.releaseGroup statement group).1.next = store.next := by
    rw [StateStore.releaseGroup]
    split <;> rfl
  refine sound.of_cells (sound.toTidy.releaseGroup statement group) (Nat.le_of_eq next.symm)
    fun found => ?_
  rw [cell?_releaseGroup] at found
  split at found
  next => cases found
  next => exact ⟨_, found, rfl⟩

theorem Sound.releaseStatement
    (sound : store.Sound)
    (statement : StatementId) :
    (store.releaseStatement statement).1.Sound := by
  refine sound.of_cells (sound.toTidy.releaseStatement statement) (Nat.le_refl _) fun found => ?_
  rw [cell?_releaseStatement] at found
  split at found
  next => cases found
  next => exact ⟨_, found, rfl⟩

theorem Sound.hold
    (sound : store.Sound)
    (statement : StatementId) :
    (store.hold statement).Sound := by
  refine sound.of_cells (sound.toTidy.hold statement) (Nat.le_refl _) fun found => ?_
  rw [cell?_hold] at found
  exact ⟨_, found, rfl⟩

/-- A handle names the state that has its number. -/
theorem Sound.get?_eq_some_iff
    (sound : store.Sound)
    {handle : StateHandle}
    {state : AggregateState} :
    store.get? handle = some state ↔
      ∃ statement group key, store.cell? statement group key = some ⟨handle.serial, state⟩ := by
  rw [get?, Option.map_eq_some_iff]
  constructor
  · rintro ⟨cell, found, rfl⟩
    obtain ⟨statement, group, key, atPlace⟩ :=
      sound.mem_cells.mp (List.mem_of_find?_eq_some found)
    have same : cell.serial = handle.serial := by simpa using List.find?_some found
    exact ⟨statement, group, key, same ▸ atPlace⟩
  · rintro ⟨statement, group, key, atPlace⟩
    have member := sound.mem_cells.mpr ⟨statement, group, key, atPlace⟩
    cases found : store.cells.find? fun cell => cell.serial == handle.serial with
    | none =>
        rw [List.find?_eq_none] at found
        exact absurd (beq_self_eq_true handle.serial) (found _ member)
    | some cell =>
        obtain ⟨other, otherGroup, otherKey, atOther⟩ :=
          sound.mem_cells.mp (List.mem_of_find?_eq_some found)
        have same : cell.serial = handle.serial := by simpa using List.find?_some found
        obtain ⟨rfl, inGroup, rfl⟩ := sound.unique atOther atPlace same
        rw [cell?_congr inGroup, atPlace] at atOther
        cases atOther
        exact ⟨_, rfl, rfl⟩

/-- A handle of the state at a place names that state. -/
theorem Sound.get?_of_cell
    (sound : store.Sound)
    {cell : StateCell}
    (found : store.cell? statement group key = some cell)
    {handle : StateHandle}
    (isHandle : handle.serial = cell.serial) :
    store.get? handle = some cell.state :=
  sound.get?_eq_some_iff.mpr ⟨statement, group, key, isHandle ▸ found⟩

/--
What becomes of asking for a state: the one at the place is handed out, a new one is created there,
or its creation fails and nothing is held that was not held before.
-/
theorem Sound.obtain_cases
    (sound : store.Sound)
    (statement : StatementId)
    (group : GroupKey)
    (handler : AggregateHandler)
    (occasion : Occasion) :
    (∃ cell, store.cell? statement group handler.key = some cell ∧
      store.obtain statement group handler occasion =
        (store, .ok ⟨handler.key, cell.serial⟩)) ∨
    (∃ state, store.cell? statement group handler.key = none ∧
      handler.create occasion statement group = .ok state ∧
      store.obtain statement group handler occasion =
        (store.add statement group handler.key state, .ok ⟨handler.key, store.next⟩)) ∨
    (∃ report, store.cell? statement group handler.key = none ∧
      handler.create occasion statement group = .error report ∧
      store.obtain statement group handler occasion =
        (store.hold statement, .error (.creationFailed handler.function report))) := by
  cases found : store.cell? statement group handler.key with
  | some cell =>
      exact .inl ⟨cell, rfl, obtain_of_present found⟩
  | none =>
      cases outcome : handler.create occasion statement group with
      | ok state =>
          exact .inr (.inl ⟨state, rfl, rfl, obtain_of_created found outcome⟩)
      | error report =>
          exact .inr (.inr ⟨report, rfl, rfl,
            obtain_of_failed (sound.filled statement group) found outcome⟩)

end StateStore

end EventQuery
