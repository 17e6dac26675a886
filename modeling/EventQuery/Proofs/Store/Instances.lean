import EventQuery.Proofs.Store.Calls
import Mathlib.Data.List.Dedup

namespace EventQuery

/-!
# The store as a map of instances

The tables within tables of a store are one finite map from places to instances.  The map is written
down here as the list of all instances that were ever created, of which some are live: an instance is
known by its position, which is never given to another one, and it is changed by nothing but updates
through its handles and the release of its group or its statement.  The store and the map give the
same answers to all calls.
-/

/-- A statement, a group of it as its rows are told apart, and the key of a state. -/
structure StatePlace where
  statement : StatementId
  group : List ValueKey
  key : StateKey
  deriving DecidableEq

/-- The place of a state in a group of a statement. -/
def StatePlace.of (statement : StatementId) (group : GroupKey) (key : StateKey) : StatePlace :=
  ⟨statement, group.keys, key⟩

/-- Places are the same when their statements, groups and keys are. -/
theorem StatePlace.of_eq_iff
    {statement other : StatementId}
    {group otherGroup : GroupKey}
    {key otherKey : StateKey} :
    StatePlace.of statement group key = .of other otherGroup otherKey ↔
      (StateStore.sameGroup statement group other otherGroup && key == otherKey) = true := by
  simp only [StatePlace.of, StatePlace.mk.injEq, StateStore.sameGroup, Bool.and_eq_true,
    beq_iff_eq, GroupKey.beq_iff, and_assoc]

/-- A store holds the same state at the same place. -/
theorem StateStore.cell?_of_eq
    {store : StateStore}
    {statement other : StatementId}
    {group otherGroup : GroupKey}
    {key otherKey : StateKey}
    (same : StatePlace.of statement group key = .of other otherGroup otherKey) :
    store.cell? statement group key = store.cell? other otherGroup otherKey := by
  have parts := StatePlace.of_eq_iff.mp same
  simp only [sameGroup, Bool.and_eq_true, beq_iff_eq] at parts
  rw [parts.1.1, parts.2, cell?_congr parts.1.2]

/-- Whether a place is in a group of a statement. -/
def StatePlace.isIn (place : StatePlace) (statement : StatementId) (group : GroupKey) : Bool :=
  place.statement == statement && place.group == group.keys

theorem StatePlace.isIn_of
    {statement other : StatementId}
    {group otherGroup : GroupKey}
    {key : StateKey} :
    (StatePlace.of other otherGroup key).isIn statement group =
      StateStore.sameGroup statement group other otherGroup := by
  rw [Bool.eq_iff_iff, StatePlace.isIn, StateStore.sameGroup, Bool.and_eq_true, Bool.and_eq_true,
    beq_iff_eq, beq_iff_eq, beq_iff_eq, GroupKey.beq_iff]
  exact and_congr eq_comm eq_comm

/-- A state that was created at a place. -/
structure StateInstance where
  place : StatePlace
  state : AggregateState
  /-- Whether neither its group nor its statement has been released since. -/
  live : Bool

/-- All instances that were ever created, in order. -/
structure StateMap where
  instances : List StateInstance

namespace StateMap

/-- The map before anything is created. -/
def empty : StateMap := ⟨[]⟩

/-- The position of the live instance at a place. -/
def positionAt? (map : StateMap) (place : StatePlace) : Option Nat :=
  map.instances.findIdx? fun held => held.live && held.place == place

/-- The instance at a position, while it is live. -/
def liveAt? (map : StateMap) (position : Nat) : Option StateInstance :=
  map.instances[position]?.filter StateInstance.live

/-- The places of the live instances of a statement. -/
def placesOf (map : StateMap) (statement : StatementId) : List StatePlace :=
  ((map.instances.filter StateInstance.live).map StateInstance.place).filter fun place =>
    place.statement == statement

/-- The different groups of the live instances of a statement. -/
def groupsOf (map : StateMap) (statement : StatementId) : List (List ValueKey) :=
  ((map.placesOf statement).map StatePlace.group).dedup

/-- A handle of the live instance at a place. -/
def lookup (map : StateMap) (statement : StatementId) (group : GroupKey) (key : StateKey) :
    Option StateHandle :=
  (map.positionAt? (.of statement group key)).map fun position => ⟨key, position⟩

/-- A handle of the live instance at a place, which is created exactly when there is none. -/
def obtain (map : StateMap) (statement : StatementId) (group : GroupKey)
    (handler : AggregateHandler) (occasion : Occasion) :
    StateMap × Except ActivationError StateHandle :=
  match map.lookup statement group handler.key with
  | some handle => (map, .ok handle)
  | none =>
      match handler.create occasion statement group with
      | .ok state =>
          (⟨map.instances ++ [⟨.of statement group handler.key, state, true⟩]⟩,
            .ok ⟨handler.key, map.instances.length⟩)
      | .error report => (map, .error (.creationFailed handler.function report))

/-- Change the state of the instance at the position of a handle, while it is live. -/
def update (map : StateMap) (handle : StateHandle)
    (change : AggregateState → AggregateState × Option Fault) : StateMap × Option Fault :=
  match map.liveAt? handle.serial with
  | none => (map, none)
  | some held =>
      (⟨map.instances.set handle.serial { held with state := (change held.state).1 }⟩,
        (change held.state).2)

/-- The instances at some places are live no more. -/
def release (map : StateMap) (ends : StatePlace → Bool) : StateMap :=
  ⟨map.instances.map fun held =>
    if ends held.place then { held with live := false } else held⟩

/-- Answer a call. -/
def perform (map : StateMap) : StoreCall → StateMap × StoreAnswer
  | .obtain statement group handler occasion =>
      let (obtained, result) := map.obtain statement group handler occasion
      (obtained, .obtained result)
  | .lookup statement group key => (map, .found (map.lookup statement group key))
  | .releaseGroup statement group =>
      (map.release fun place => place.isIn statement group,
        .releasedGroup ((map.groupsOf statement).contains group.keys))
  | .releaseStatement statement =>
      (map.release fun place => place.statement == statement,
        .releasedStatement (map.groupsOf statement).length)
  | .enter handle row occasion =>
      let (changed, fault) := map.update handle fun state => state.enter row occasion
      (changed, .updated fault)
  | .leave handle row occasion =>
      let (changed, fault) := map.update handle fun state => state.leave row occasion
      (changed, .updated fault)
  | .read handle handler =>
      (map, .result ((map.liveAt? handle.serial).map fun held => handler.read held.state))
  | .isLive handle => (map, .live (map.liveAt? handle.serial).isSome)
  | .groupCount statement => (map, .count (map.groupsOf statement).length)
  | .stateCount statement => (map, .count (map.placesOf statement).length)

/-- Some calls with their answers. -/
def trace (map : StateMap) : List StoreCall → StoreTrace
  | [] => []
  | call :: rest => (call, (map.perform call).2) :: trace (map.perform call).1 rest

end StateMap

namespace StateStore

/-- The places of the states of a statement. -/
def placesOf (store : StateStore) (statement : StatementId) : List StatePlace :=
  (store.groupsOf statement).flatMap fun (group, states) =>
    states.map fun (key, _) => .of statement group key

section Counting

variable {store : StateStore} {statement : StatementId}

theorem length_placesOf : (store.placesOf statement).length = store.stateCount statement := by
  simp only [placesOf, stateCount, List.length_flatMap, List.length_map]

theorem Tidy.mem_placesOf
    (tidy : store.Tidy)
    {place : StatePlace} :
    place ∈ store.placesOf statement ↔
      ∃ group key cell,
        store.cell? statement group key = some cell ∧ place = .of statement group key := by
  simp only [placesOf, List.mem_flatMap, List.mem_map, Prod.exists]
  constructor
  · rintro ⟨group, states, inGroups, key, cell, inStates, rfl⟩
    have isStates : store.statesOf statement group = states := by
      rw [statesOf, (tidy.groups statement).find?_eq_some inGroups]
      rfl
    exact ⟨group, key, cell,
      (tidy.states statement group).find?_eq_some (isStates ▸ inStates), rfl⟩
  · rintro ⟨group, key, cell, found, rfl⟩
    have held : (store.groupsOf statement).find? group = some (store.statesOf statement group) := by
      cases isHeld : (store.groupsOf statement).find? group with
      | some states => rw [statesOf, isHeld, Option.getD_some]
      | none => simp [cell?, statesOf, isHeld, Table.find?] at found
    obtain ⟨heldGroup, sameGroup, inGroups⟩ := Table.mem_of_find? held
    obtain ⟨heldKey, sameKey, inStates⟩ := Table.mem_of_find? found
    refine ⟨heldGroup, _, inGroups, heldKey, cell, inStates, ?_⟩
    rw [eq_of_beq sameKey, StatePlace.of, StatePlace.of, GroupKey.beq_iff.mp sameGroup]

theorem Tidy.nodup_placesOf
    (tidy : store.Tidy)
    (statement : StatementId) :
    (store.placesOf statement).Nodup := by
  refine List.nodup_flatMap.mpr ⟨?_, ?_⟩
  · intro entry inGroups
    have isStates : store.statesOf statement entry.1 = entry.2 := by
      have found : (store.groupsOf statement).find? entry.1 = some entry.2 :=
        (tidy.groups statement).find?_eq_some inGroups
      rw [statesOf, found]
      rfl
    refine List.pairwise_map.mpr (List.Pairwise.imp ?_ (isStates ▸ tidy.states statement entry.1))
    intro first second different same
    rw [StatePlace.of_eq_iff] at same
    simp [different] at same
  · refine (tidy.groups statement).imp ?_
    intro first second different place inFirst inSecond
    simp only [List.mem_map, Prod.exists] at inFirst inSecond
    obtain ⟨key, cell, _, rfl⟩ := inFirst
    obtain ⟨otherKey, otherCell, _, same⟩ := inSecond
    rw [eq_comm, StatePlace.of_eq_iff] at same
    simp [sameGroup, different] at same

/-- The groups that are held are those that have states. -/
theorem Tidy.perm_groupsOf
    (tidy : store.Tidy)
    (statement : StatementId) :
    ((store.groupsOf statement).map fun entry => entry.1.keys).Perm
      ((store.placesOf statement).map StatePlace.group).dedup := by
  have distinct : ((store.groupsOf statement).map fun entry => entry.1.keys).Nodup := by
    refine List.pairwise_map.mpr ((tidy.groups statement).imp ?_)
    intro first second different same
    rw [GroupKey.beq_iff.mpr same] at different
    cases different
  refine (List.perm_ext_iff_of_nodup distinct (List.nodup_dedup _)).mpr fun keys => ?_
  rw [List.mem_dedup, List.mem_map, List.mem_map]
  constructor
  · rintro ⟨⟨group, states⟩, inGroups, rfl⟩
    cases states with
    | nil => exact absurd ((tidy.groups statement).find?_eq_some inGroups) (tidy.filled _ _)
    | cons first rest =>
        refine ⟨.of statement group first.1, ?_, rfl⟩
        exact List.mem_flatMap.mpr ⟨_, inGroups, List.mem_map.mpr ⟨first, by simp, rfl⟩⟩
  · rintro ⟨place, inPlaces, rfl⟩
    obtain ⟨⟨group, states⟩, inGroups, inStates⟩ := List.mem_flatMap.mp inPlaces
    obtain ⟨first, _, rfl⟩ := List.mem_map.mp inStates
    exact ⟨⟨group, states⟩, inGroups, rfl⟩

end Counting

/-- A store has at its places what is live in the map. -/
structure Shows (store : StateStore) (map : StateMap) : Prop where
  sound : store.Sound
  next : store.next = map.instances.length
  placed :
    ∀ held ∈ map.instances, ∃ statement group key, held.place = .of statement group key
  cell :
    ∀ {statement group key serial state},
      store.cell? statement group key = some ⟨serial, state⟩ ↔
        map.instances[serial]? = some ⟨.of statement group key, state, true⟩

private theorem getElem?_concat_eq_some_iff
    {instances : List StateInstance}
    {added held : StateInstance}
    {position : Nat} :
    (instances ++ [added])[position]? = some held ↔
      instances[position]? = some held ∨ position = instances.length ∧ added = held := by
  rcases Nat.lt_trichotomy position instances.length with before | rfl | beyond
  · rw [List.getElem?_append_left before]
    simp [Nat.ne_of_lt before]
  · simp
  · rw [List.getElem?_eq_none (by rw [List.length_append]; exact beyond),
      List.getElem?_eq_none (Nat.le_of_lt beyond)]
    simp [Nat.ne_of_gt beyond]

namespace Shows

variable {store : StateStore} {map : StateMap} {statement : StatementId} {group : GroupKey}
  {key : StateKey}

theorem empty : StateStore.empty.Shows .empty where
  sound := .empty
  next := rfl
  placed := fun _ member => nomatch member
  cell := by simp [cell?, statesOf, groupsOf, StateStore.empty, StateMap.empty, Table.find?]

/-- The instance at a place has the number of the state there as its position. -/
theorem positionAt?
    (shows : store.Shows map) :
    map.positionAt? (.of statement group key) =
      (store.cell? statement group key).map StateCell.serial := by
  have atPlace : ∀ {position : Nat} (inside : position < map.instances.length),
      (map.instances[position].live &&
          map.instances[position].place == .of statement group key) = true →
        store.cell? statement group key = some ⟨position, map.instances[position].state⟩ := by
    intro position inside matching
    obtain ⟨live, same⟩ := Bool.and_eq_true_iff.mp matching
    rw [shows.cell, List.getElem?_eq_getElem inside, ← eq_of_beq same, ← live]
  cases found : store.cell? statement group key with
  | none =>
      refine List.findIdx?_eq_none_iff.mpr fun held member => ?_
      obtain ⟨position, inside, rfl⟩ := List.mem_iff_getElem.mp member
      rw [Bool.eq_false_iff]
      intro matching
      cases found.symm.trans (atPlace inside matching)
  | some cell =>
      obtain ⟨inside, isHeld⟩ := List.getElem?_eq_some_iff.mp (shows.cell.mp found)
      refine List.findIdx?_eq_some_iff_getElem.mpr ⟨inside, by simp [isHeld], ?_⟩
      intro position before matching
      have same := found.symm.trans (atPlace (Nat.lt_trans before inside) matching)
      rw [Option.some.inj same] at before
      exact Nat.lt_irrefl _ before

theorem lookup
    (shows : store.Shows map) :
    map.lookup statement group key = store.lookup statement group key := by
  rw [StateMap.lookup, shows.positionAt?, StateStore.lookup, Option.map_map]
  rfl

/-- A handle reads the instance at its position, while it is live. -/
theorem liveAt?
    (shows : store.Shows map)
    (handle : StateHandle) :
    (map.liveAt? handle.serial).map StateInstance.state = store.get? handle := by
  ext state
  rw [shows.sound.get?_eq_some_iff, Option.map_eq_some_iff]
  constructor
  · rintro ⟨⟨place, state, live⟩, found, rfl⟩
    obtain ⟨isHeld, rfl⟩ := Option.filter_eq_some_iff.mp found
    obtain ⟨statement, group, key, rfl⟩ := shows.placed _ (List.mem_of_getElem? isHeld)
    exact ⟨statement, group, key, shows.cell.mpr isHeld⟩
  · rintro ⟨statement, group, key, found⟩
    exact ⟨_, Option.filter_eq_some_iff.mpr ⟨shows.cell.mp found, rfl⟩, rfl⟩

/-- Both create an instance at a place exactly when there is none. -/
theorem obtain
    (shows : store.Shows map)
    (statement : StatementId)
    (group : GroupKey)
    (handler : AggregateHandler)
    (occasion : Occasion) :
    (store.obtain statement group handler occasion).2 =
        (map.obtain statement group handler occasion).2 ∧
      (store.obtain statement group handler occasion).1.Shows
        (map.obtain statement group handler occasion).1 := by
  rw [StateMap.obtain, shows.lookup, StateStore.lookup]
  obtain ⟨cell, found, same⟩ | ⟨state, absent, created, same⟩ | ⟨report, absent, failed, same⟩ :=
    shows.sound.obtain_cases statement group handler occasion
  · rw [same, found]
    exact ⟨rfl, shows⟩
  · rw [same, absent]
    simp only [Option.map_none, created]
    refine ⟨by rw [shows.next], shows.sound.add _ _ _ _, ?_, ?_, ?_⟩
    · rw [List.length_append, ← shows.next]
      rfl
    · intro held member
      rcases List.mem_append.mp member with isOld | isNew
      · exact shows.placed held isOld
      · exact ⟨statement, group, handler.key, by rw [List.mem_singleton.mp isNew]⟩
    · intro other otherGroup otherKey serial otherState
      rw [cell?_add, getElem?_concat_eq_some_iff, ← shows.cell, ← shows.next]
      by_cases samePlace :
          (sameGroup statement group other otherGroup && handler.key == otherKey) = true
      · rw [if_pos samePlace, ← cell?_of_eq (StatePlace.of_eq_iff.mpr samePlace), absent]
        simp [StatePlace.of_eq_iff, samePlace, eq_comm]
      · rw [if_neg samePlace]
        simp [StatePlace.of_eq_iff, samePlace]
  · rw [same, absent]
    simp only [Option.map_none, failed]
    refine ⟨trivial, shows.sound.hold statement, shows.next, shows.placed, ?_⟩
    intro other otherGroup otherKey serial state
    rw [cell?_hold]
    exact shows.cell

/-- Both change the state that a handle names, and nothing else. -/
theorem update
    (shows : store.Shows map)
    (handle : StateHandle)
    (change : AggregateState → AggregateState × Option Fault) :
    (store.update handle change).2 = (map.update handle change).2 ∧
      (store.update handle change).1.Shows (map.update handle change).1 := by
  have named := shows.liveAt? handle
  rw [StateMap.update, StateStore.update, ← named]
  cases found : map.liveAt? handle.serial with
  | none =>
      exact ⟨rfl, shows⟩
  | some held =>
      obtain ⟨place, held, live⟩ := held
      obtain ⟨isHeld, rfl⟩ := Option.filter_eq_some_iff.mp found
      refine ⟨rfl, shows.sound.replace _ _, ?_, ?_, ?_⟩
      · rw [List.length_set]
        exact shows.next
      · intro other member
        rcases List.mem_or_eq_of_mem_set member with isOld | rfl
        · exact shows.placed other isOld
        · exact shows.placed ⟨place, held, true⟩ (List.mem_of_getElem? isHeld)
      · intro statement group key serial state
        rw [Option.map_some, cell?_replace, Option.map_eq_some_iff, List.getElem?_set]
        constructor
        · rintro ⟨old, foundOld, replaced⟩
          rw [StateCell.replace] at replaced
          split at replaced
          next same =>
              cases replaced
              rw [if_pos same.symm, if_pos (List.getElem?_eq_some_iff.mp isHeld).1]
              rw [shows.cell, same, isHeld] at foundOld
              cases foundOld
              rfl
          next different =>
              subst replaced
              rw [if_neg fun same => different same.symm]
              exact shows.cell.mp foundOld
        · intro changed
          split at changed
          next same =>
              rw [if_pos (List.getElem?_eq_some_iff.mp isHeld).1] at changed
              cases changed
              refine ⟨⟨handle.serial, held⟩, shows.cell.mpr isHeld, ?_⟩
              rw [StateCell.replace, if_pos rfl, same]
          next different =>
              refine ⟨_, shows.cell.mpr changed, ?_⟩
              rw [StateCell.replace, if_neg fun same => different same.symm]

/-- What ends at the same places in both leaves the same in both. -/
theorem release
    {left : StateStore}
    {ends : StatePlace → Bool}
    (shows : store.Shows map)
    (sound : left.Sound)
    (next : left.next = store.next)
    (cells : ∀ statement group key,
      left.cell? statement group key =
        if ends (.of statement group key) then none else store.cell? statement group key) :
    left.Shows (map.release ends) where
  sound := sound
  next := by
    rw [next, shows.next, StateMap.release, List.length_map]
  placed := by
    intro held member
    obtain ⟨old, isOld, rfl⟩ := List.mem_map.mp member
    have placed := shows.placed old isOld
    split <;> exact placed
  cell := by
    intro statement group key serial state
    rw [cells, StateMap.release, List.getElem?_map, Option.map_eq_some_iff]
    constructor
    · intro found
      split at found
      next => cases found
      next stays => exact ⟨_, shows.cell.mp found, by rw [if_neg stays]⟩
    · rintro ⟨⟨place, oldState, live⟩, isOld, kept⟩
      split at kept
      next => simp at kept
      next stays =>
          cases kept
          rw [if_neg stays]
          exact shows.cell.mpr isOld

/-- The live instances of a statement are at the places of its states. -/
theorem perm_placesOf
    (shows : store.Shows map)
    (statement : StatementId) :
    (store.placesOf statement).Perm (map.placesOf statement) := by
  have distinct : (map.placesOf statement).Nodup := by
    refine List.Pairwise.filter _ (List.pairwise_map.mpr (List.pairwise_filter.mpr ?_))
    refine List.pairwise_iff_getElem.mpr fun first second firstIn secondIn before => ?_
    intro firstLive secondLive same
    obtain ⟨statement, group, key, isPlace⟩ := shows.placed _ (List.getElem_mem firstIn)
    have atFirst : store.cell? statement group key =
        some ⟨first, map.instances[first].state⟩ := by
      rw [shows.cell, List.getElem?_eq_getElem firstIn, ← isPlace, ← firstLive]
    have atSecond : store.cell? statement group key =
        some ⟨second, map.instances[second].state⟩ := by
      rw [shows.cell, List.getElem?_eq_getElem secondIn, ← isPlace, same, ← secondLive]
    rw [(StateCell.mk.inj (Option.some.inj (atFirst.symm.trans atSecond))).1] at before
    exact Nat.lt_irrefl _ before
  refine (List.perm_ext_iff_of_nodup (shows.sound.nodup_placesOf statement) distinct).mpr ?_
  intro place
  rw [shows.sound.mem_placesOf, StateMap.placesOf, List.mem_filter, List.mem_map]
  constructor
  · rintro ⟨group, key, ⟨serial, state⟩, found, rfl⟩
    have isHeld := List.mem_of_getElem? (shows.cell.mp found)
    exact ⟨⟨_, List.mem_filter.mpr ⟨isHeld, rfl⟩, rfl⟩, beq_self_eq_true statement⟩
  · rintro ⟨⟨⟨place, state, live⟩, isHeld, rfl⟩, inStatement⟩
    obtain ⟨isInstance, rfl⟩ := List.mem_filter.mp isHeld
    obtain ⟨_, group, key, rfl⟩ := shows.placed _ isInstance
    obtain ⟨serial, atSerial⟩ := List.mem_iff_getElem?.mp isInstance
    cases eq_of_beq inStatement
    exact ⟨group, key, _, shows.cell.mpr atSerial, rfl⟩

theorem stateCount
    (shows : store.Shows map)
    (statement : StatementId) :
    store.stateCount statement = (map.placesOf statement).length := by
  rw [← length_placesOf, (shows.perm_placesOf statement).length_eq]

theorem perm_groupsOf
    (shows : store.Shows map)
    (statement : StatementId) :
    ((store.groupsOf statement).map fun entry => entry.1.keys).Perm (map.groupsOf statement) :=
  (shows.sound.perm_groupsOf statement).trans
    ((shows.perm_placesOf statement).map StatePlace.group).dedup

theorem groupCount
    (shows : store.Shows map)
    (statement : StatementId) :
    store.groupCount statement = (map.groupsOf statement).length := by
  rw [← (shows.perm_groupsOf statement).length_eq, List.length_map, StateStore.groupCount]

theorem releaseGroup
    (shows : store.Shows map)
    (statement : StatementId)
    (group : GroupKey) :
    (store.releaseGroup statement group).2 = (map.groupsOf statement).contains group.keys ∧
      (store.releaseGroup statement group).1.Shows
        (map.release fun place => place.isIn statement group) := by
  refine ⟨?_, shows.release (shows.sound.releaseGroup statement group) ?_ ?_⟩
  · have held : (store.releaseGroup statement group).2 =
        ((store.groupsOf statement).find? group).isSome := by
      rw [StateStore.releaseGroup, groupsOf]
      split
      next isNone =>
          rw [isNone]
          rfl
      next entries found =>
          rw [found]
          rfl
    rw [held, Bool.eq_iff_iff, List.contains_iff_mem, ← (shows.perm_groupsOf statement).mem_iff,
      Table.isSome_find?_iff, List.mem_map]
    simp only [GroupKey.beq_iff]
  · rw [StateStore.releaseGroup]
    split <;> rfl
  · intro other otherGroup key
    rw [cell?_releaseGroup, StatePlace.isIn_of]

theorem releaseStatement
    (shows : store.Shows map)
    (statement : StatementId) :
    (store.releaseStatement statement).2 = (map.groupsOf statement).length ∧
      (store.releaseStatement statement).1.Shows
        (map.release fun place => place.statement == statement) := by
  refine ⟨shows.groupCount statement, shows.release (shows.sound.releaseStatement statement) rfl ?_⟩
  intro other group key
  rw [cell?_releaseStatement, Bool.beq_comm]
  simp [StatePlace.of]

/-- Both give the same answer to a call, and the store shows the map again afterwards. -/
theorem perform
    (shows : store.Shows map)
    (call : StoreCall) :
    (store.perform call).2 = (map.perform call).2 ∧
      (store.perform call).1.Shows (map.perform call).1 := by
  cases call with
  | obtain statement group handler occasion =>
      have both := shows.obtain statement group handler occasion
      exact ⟨congrArg _ both.1, both.2⟩
  | lookup statement group key => exact ⟨congrArg _ shows.lookup.symm, shows⟩
  | releaseGroup statement group =>
      have both := shows.releaseGroup statement group
      exact ⟨congrArg _ both.1, both.2⟩
  | releaseStatement statement =>
      have both := shows.releaseStatement statement
      exact ⟨congrArg _ both.1, both.2⟩
  | enter handle row occasion =>
      have both := shows.update handle fun state => state.enter row occasion
      exact ⟨congrArg _ both.1, both.2⟩
  | leave handle row occasion =>
      have both := shows.update handle fun state => state.leave row occasion
      exact ⟨congrArg _ both.1, both.2⟩
  | read handle handler =>
      refine ⟨congrArg StoreAnswer.result ?_, shows⟩
      rw [read?, ← shows.liveAt?, Option.map_map]
      rfl
  | isLive handle =>
      refine ⟨congrArg StoreAnswer.live ?_, shows⟩
      rw [isLive, ← shows.liveAt?, Option.isSome_map]
  | groupCount statement => exact ⟨congrArg _ (shows.groupCount statement), shows⟩
  | stateCount statement => exact ⟨congrArg _ (shows.stateCount statement), shows⟩

theorem trace
    (shows : store.Shows map)
    (calls : List StoreCall) :
    store.trace calls = map.trace calls := by
  induction calls generalizing store map with
  | nil =>
      rfl
  | cons call rest inductionHypothesis =>
      have both := shows.perform call
      rw [StateStore.trace, StateMap.trace, both.1, inductionHypothesis both.2]

end Shows

end StateStore

end EventQuery
