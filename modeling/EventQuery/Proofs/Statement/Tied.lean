import EventQuery.Proofs.Statement.Moves
import EventQuery.Proofs.Store.Lookups
import Mathlib.Data.List.Forall2

namespace EventQuery

namespace Statement

/-!
# Statements tied to the store

Between moves, the store holds a state of a statement exactly when its group is open and one of its
aggregations has its key, and each open group holds the handles of its states.  A stopped statement
holds nothing, and nothing is held for it.
-/

/-- The handles of a group are found in the store under the keys of the aggregations, in order. -/
abbrev HandlesFound (store : StateStore) (id : StatementId) (key : GroupKey)
    (aggregates : List AggregateSlot) (handles : List StateHandle) : Prop :=
  List.Forall₂
    (fun aggregate handle => store.lookup id key aggregate.handler.key = some handle)
    aggregates handles

/-- The open groups of a statement are those for which the store holds its states. -/
structure Tied (statement : Statement) (store : StateStore) : Prop where
  ended : statement.stopped = true → statement.groups = [] ∧ statement.window = []
  distinct :
    statement.groups.Pairwise fun first second => (first.key == second.key) = false
  found :
    ∀ group ∈ statement.groups,
      HandlesFound store statement.id group.key statement.plan.aggregates group.handles
  known :
    ∀ {group key handle}, store.lookup statement.id group key = some handle →
      (∃ held ∈ statement.groups, (held.key == group) = true) ∧
        ∃ aggregate ∈ statement.plan.aggregates, aggregate.handler.key = key

section Obtaining

variable {store : StateStore}

/-- Asking for the states of a group adds handles at most. -/
theorem grows_obtainAll
    (sound : store.Sound)
    (id : StatementId)
    (key : GroupKey)
    (occasion : Occasion)
    (position : Nat)
    (aggregates : List AggregateSlot) :
    store.Grows (obtainAll id key occasion store position aggregates).1 id key
      (aggregates.map fun aggregate => aggregate.handler.key) := by
  induction aggregates generalizing store position with
  | nil =>
      exact .refl _ _ _ _
  | cons aggregate rest inductionHypothesis =>
      have first := sound.grows_obtain id key aggregate.handler (position :: occasion)
      have soundAfter := sound.obtain id key aggregate.handler (position :: occasion)
      rcases obtaining : store.obtain id key aggregate.handler (position :: occasion) with
        ⟨obtained, error | handle⟩
      · rw [obtaining] at first
        simp only [obtainAll, obtaining]
        exact first.trans (.refl _ _ _ _)
      · rw [obtaining] at first soundAfter
        have others := inductionHypothesis soundAfter (position + 1)
        rcases further : obtainAll id key occasion obtained (position + 1) rest with
          ⟨last, error | handles⟩ <;>
          · rw [further] at others
            simp only [obtainAll, obtaining, further]
            exact first.trans others

/-- All states of a group that were asked for are found at their places. -/
theorem found_obtainAll
    (sound : store.Sound)
    {id : StatementId}
    {key : GroupKey}
    {occasion : Occasion}
    {position : Nat}
    {aggregates : List AggregateSlot}
    {handles : List StateHandle}
    {last : StateStore}
    (outcome : obtainAll id key occasion store position aggregates = (last, .ok handles)) :
    HandlesFound last id key aggregates handles := by
  induction aggregates generalizing store position handles with
  | nil =>
      cases outcome
      exact .nil
  | cons aggregate rest inductionHypothesis =>
      have soundAfter := sound.obtain id key aggregate.handler (position :: occasion)
      rw [obtainAll] at outcome
      rcases first : store.obtain id key aggregate.handler (position :: occasion) with
        ⟨obtained, error | handle⟩
      · simp [first] at outcome
      · rw [first] at soundAfter
        have others := grows_obtainAll soundAfter id key occasion (position + 1) rest
        have given := sound.lookup_obtain (congrArg Prod.snd first)
        rw [first] at given
        rcases obtaining : obtainAll id key occasion obtained (position + 1) rest with
          ⟨later, error | otherHandles⟩
        · simp [first, obtaining] at outcome
        · simp only [first, obtaining, Prod.mk.injEq, Except.ok.injEq] at outcome
          obtain ⟨rfl, rfl⟩ := outcome
          rw [obtaining] at others
          exact .cons (others.kept given) (inductionHypothesis soundAfter obtaining)

end Obtaining

section Using

variable {statement : Statement} {store : StateStore} {occasion : Occasion} {row : Row}
  {handles : List StateHandle} {call : StoreCall}

theorem uses_of_mem_enterCalls
    {entered : Nat}
    (member : call ∈ enterCalls row occasion store entered handles) :
    ∃ handle ∈ handles, call.Uses handle := by
  induction handles generalizing store entered with
  | nil =>
      cases member
  | cons handle rest inductionHypothesis =>
      rw [enterCalls] at member
      rcases List.mem_cons.mp member with rfl | later
      · exact ⟨handle, List.mem_cons_self, rfl⟩
      · split at later
        next =>
            obtain ⟨other, inRest, uses⟩ := inductionHypothesis later
            exact ⟨other, List.mem_cons_of_mem _ inRest, uses⟩
        next => cases later

theorem uses_of_mem_leaveCalls
    {left : Nat}
    (member : call ∈ leaveCalls row occasion left handles) :
    ∃ handle ∈ handles, call.Uses handle := by
  induction handles generalizing left with
  | nil =>
      cases member
  | cons handle rest inductionHypothesis =>
      rcases List.mem_cons.mp member with rfl | later
      · exact ⟨handle, List.mem_cons_self, rfl⟩
      · obtain ⟨other, inRest, uses⟩ := inductionHypothesis later
        exact ⟨other, List.mem_cons_of_mem _ inRest, uses⟩

theorem mem_of_mem_distinctHandles
    {handle : StateHandle}
    (member : handle ∈ statement.distinctHandles handles) :
    handle ∈ handles := by
  obtain ⟨position, _, isHandle⟩ := List.mem_filterMap.mp member
  exact List.mem_of_getElem? isHandle

theorem uses_of_mem_expireCalls
    {position : Nat}
    {rows : List WindowRow}
    (member : call ∈ statement.expireCalls occasion position rows) :
    ∃ group ∈ statement.groups, ∃ handle ∈ group.handles, call.Uses handle := by
  induction rows generalizing position with
  | nil =>
      cases member
  | cons expired rest inductionHypothesis =>
      rcases List.mem_append.mp member with now | later
      · obtain ⟨handle, entered, uses⟩ := uses_of_mem_leaveCalls now
        rw [enteredHandles] at entered
        split at entered
        next => cases entered
        next group isOpen =>
            exact ⟨group, List.mem_of_find?_eq_some isOpen, handle,
              mem_of_mem_distinctHandles (List.mem_of_mem_take entered), uses⟩
      · exact inductionHypothesis later

theorem uses_of_mem_readCalls
    {slots : List (AggregateSlot × StateHandle)}
    (member : call ∈ readCalls store slots) :
    ∃ slot ∈ slots, call.Uses slot.2 := by
  induction slots with
  | nil =>
      cases member
  | cons slot rest inductionHypothesis =>
      rw [readCalls] at member
      rcases List.mem_cons.mp member with rfl | later
      · exact ⟨slot, List.mem_cons_self, rfl⟩
      · split at later
        next => cases later
        next =>
            obtain ⟨other, inRest, uses⟩ := inductionHypothesis later
            exact ⟨other, List.mem_cons_of_mem _ inRest, uses⟩

/-- Aggregating a row uses handles of open groups only. -/
theorem uses_of_mem_aggregateCalls
    {key : GroupKey}
    {group : OpenGroup}
    (isOpen : statement.group? key = some group)
    (member : call ∈ statement.aggregateCalls store key group.handles row occasion) :
    ∃ held ∈ statement.groups, ∃ handle ∈ held.handles, call.Uses handle := by
  have inGroups : group ∈ statement.groups := List.mem_of_find?_eq_some isOpen
  simp only [aggregateCalls, List.mem_append] at member
  rcases member with (entering | leaving) | reading
  · obtain ⟨handle, isDistinct, uses⟩ := uses_of_mem_enterCalls entering
    exact ⟨group, inGroups, handle, mem_of_mem_distinctHandles isDistinct, uses⟩
  · exact uses_of_mem_expireCalls leaving
  · split at reading
    next => cases reading
    next =>
        obtain ⟨slot, isSlot, uses⟩ := uses_of_mem_readCalls reading
        exact ⟨group, inGroups, slot.2, (List.of_mem_zip isSlot).2, uses⟩

end Using

section Changing

variable {statement next : Statement} {store left : StateStore} {calls : List StoreCall}

theorem Tied.of_same
    (tied : Tied statement store)
    (same : SameHolding next statement) :
    Tied next store where
  ended := by
    rw [same.stopped, same.groups, same.window]
    exact tied.ended
  distinct := by
    rw [same.groups]
    exact tied.distinct
  found := by
    rw [same.groups, same.id, same.plan]
    exact tied.found
  known := by
    rw [same.groups, same.id, same.plan]
    exact tied.known

/-- Only the handles at the places of the statement matter. -/
theorem Tied.of_lookup
    (tied : Tied statement store)
    (same : ∀ group key,
      left.lookup statement.id group key = store.lookup statement.id group key) :
    Tied statement left where
  ended := tied.ended
  distinct := tied.distinct
  found := fun group member =>
    (tied.found group member).imp fun _ _ found => (same _ _).trans found
  known := fun found => tied.known ((same _ _).symm.trans found)

/-- A statement that holds nothing is tied to a store that holds nothing for it. -/
theorem Tied.of_nothing
    (groups : statement.groups = [])
    (window : statement.window = [])
    (nothing : ∀ group key, store.lookup statement.id group key = none) :
    Tied statement store where
  ended := fun _ => ⟨groups, window⟩
  distinct := by
    rw [groups]
    exact .nil
  found := by
    rw [groups]
    exact fun _ member => nomatch member
  known := fun found => by
    rw [nothing] at found
    cases found

theorem stop_of_running
    (running : statement.stopped = false) :
    statement.stop store =
      ({ statement with
          stopped := true
          engine := statement.engine.map Engine.stop
          groups := []
          window := []
          buffers := .empty },
        (store.releaseStatement statement.id).1) := by
  rw [stop, if_neg (by simp [running])]

theorem Tied.stop
    (running : statement.stopped = false) :
    Tied (statement.stop store).1 (statement.stop store).2 := by
  rw [stop_of_running running]
  refine .of_nothing rfl rfl fun group key => ?_
  rw [StateStore.lookup_releaseStatement, if_pos rfl]

theorem Tied.open
    {obtained : StateStore}
    {key : GroupKey}
    {occasion : Occasion}
    {handles : List StateHandle}
    (tied : Tied statement store)
    (sound : store.Sound)
    (running : statement.stopped = false)
    (closed : statement.group? key = none)
    (outcome : statement.openGroup store key occasion = (next, obtained, .ok handles)) :
    Tied next obtained := by
  obtain ⟨rfl, obtaining⟩ := eq_of_openGroup_ok closed outcome
  have grows := grows_obtainAll sound statement.id key occasion 0 statement.plan.aggregates
  rw [obtaining] at grows
  constructor
  · intro ended
    cases running.symm.trans ended
  · refine List.pairwise_append.mpr ⟨tied.distinct, List.pairwise_singleton _ _, ?_⟩
    intro group member new isNew
    rw [List.mem_singleton.mp isNew]
    exact Bool.eq_false_iff.mpr (List.find?_eq_none.mp closed group member)
  · intro group member
    rcases List.mem_append.mp member with isOld | isNew
    · exact (tied.found group isOld).imp fun _ _ found => grows.kept found
    · rw [List.mem_singleton.mp isNew]
      exact found_obtainAll sound obtaining
  · intro group stateKey handle found
    rcases grows.added found with before | ⟨_, inGroup, isKey, _⟩
    · obtain ⟨⟨held, member, same⟩, isAggregate⟩ := tied.known before
      exact ⟨⟨held, List.mem_append_left _ member, same⟩, isAggregate⟩
    · obtain ⟨aggregate, member, isKey⟩ := List.mem_map.mp isKey
      exact ⟨⟨_, List.mem_append_right _ (List.mem_singleton_self _), inGroup⟩,
        aggregate, member, isKey⟩

/-- Aggregating a row leaves all handles where they are. -/
theorem lookup_aggregateRow
    {key stateGroup : GroupKey}
    {group : OpenGroup}
    {row : Row}
    {occasion : Occasion}
    {id : StatementId}
    {stateKey : StateKey}
    (isOpen : statement.group? key = some group) :
    (statement.aggregateRow store key group.handles row occasion).2.1.lookup id stateGroup stateKey =
      store.lookup id stateGroup stateKey := by
  rw [← performAll_aggregateCalls]
  refine StateStore.lookup_performAll_of_uses fun call member => ?_
  obtain ⟨_, _, handle, _, uses⟩ := uses_of_mem_aggregateCalls isOpen member
  exact ⟨handle, uses⟩

/-- The window of a running statement is not tied to the store. -/
theorem Tied.withWindow
    (tied : Tied statement store)
    (running : statement.stopped = false)
    (window : List WindowRow) :
    Tied { statement with window } store :=
  { tied with ended := fun ended => by cases running.symm.trans ended }

/-- The times of groups are not tied to the store. -/
theorem Tied.touch
    (tied : Tied statement store)
    (running : statement.stopped = false)
    (key : GroupKey) :
    Tied (statement.touchGroup key) store := by
  have touched : ∀ held : OpenGroup,
      (if held.key.same key then { held with lastUpdate := statement.now } else held).key =
          held.key ∧
        (if held.key.same key then { held with lastUpdate := statement.now } else held).handles =
          held.handles := by
    intro held
    split <;> exact ⟨rfl, rfl⟩
  constructor
  · intro ended
    cases running.symm.trans ended
  · refine List.pairwise_map.mpr (tied.distinct.imp fun different => ?_)
    rw [(touched _).1, (touched _).1]
    exact different
  · intro changed member
    obtain ⟨held, inGroups, rfl⟩ := List.mem_map.mp member
    rw [(touched held).1, (touched held).2]
    exact tied.found held inGroups
  · intro stateGroup stateKey handle found
    obtain ⟨⟨held, member, same⟩, isAggregate⟩ := tied.known found
    refine ⟨⟨_, List.mem_map.mpr ⟨held, member, rfl⟩, ?_⟩, isAggregate⟩
    rw [(touched held).1]
    exact same

theorem Tied.aggregate
    {key : GroupKey}
    {group : OpenGroup}
    (tied : Tied statement store)
    (row : Row)
    (occasion : Occasion)
    (running : statement.stopped = false)
    (isOpen : statement.group? key = some group) :
    Tied (statement.aggregateRow store key group.handles row occasion).1
      (statement.aggregateRow store key group.handles row occasion).2.1 := by
  rw [aggregateRow_fst]
  have aggregated : Tied statement
      (statement.aggregateRow store key group.handles row occasion).2.1 :=
    tied.of_lookup fun _ _ => lookup_aggregateRow isOpen
  exact (aggregated.withWindow running
    (statement.windowWith
      ⟨row, key, statement.enteredCount store group.handles row occasion⟩)).touch running key

theorem Tied.drop
    (tied : Tied statement store)
    (key : GroupKey)
    (running : statement.stopped = false) :
    Tied (statement.dropGroup store key).1 (statement.dropGroup store key).2 := by
  constructor
  · intro ended
    cases running.symm.trans ended
  · exact tied.distinct.filter _
  · intro group member
    obtain ⟨inGroups, stays⟩ := List.mem_filter.mp member
    refine (tied.found group inGroups).imp fun _ _ found => ?_
    have stays : group.key.same key = false := by simpa using stays
    have different : (key == group.key) = false := BEq.comm.trans stays
    change (store.releaseGroup statement.id key).1.lookup _ _ _ = _
    rw [StateStore.lookup_releaseGroup, if_neg (by simp [StateStore.sameGroup, different])]
    exact found
  · intro group stateKey handle found
    change (store.releaseGroup statement.id key).1.lookup _ _ _ = _ at found
    rw [StateStore.lookup_releaseGroup] at found
    split at found
    next => cases found
    next different =>
        obtain ⟨⟨held, member, same⟩, isAggregate⟩ := tied.known found
        refine ⟨⟨held, List.mem_filter.mpr ⟨member, ?_⟩, same⟩, isAggregate⟩
        have notDropped : held.key.same key = false := by
          rw [Bool.eq_false_iff]
          intro dropped
          exact different (Bool.and_eq_true_iff.mpr
            ⟨beq_self_eq_true statement.id, BEq.trans (BEq.symm dropped) same⟩)
        rw [notDropped]
        rfl

/-- Every move leaves its statement tied to the store. -/
theorem Tied.move
    (tied : Tied statement store)
    (sound : store.Sound)
    (move : Move statement store calls next left) :
    Tied next left := by
  cases move with
  | quiet same => exact tied.of_same same
  | opened running closed outcome => exact tied.open sound running closed outcome
  | aggregated row occasion running isOpen => exact tied.aggregate row occasion running isOpen
  | dropped key running => exact tied.drop key running
  | stopped running => exact .stop running
  | failed running closed outcome same =>
      refine .stop ?_
      rw [same.stopped, (eq_of_openGroup_error outcome).1]
      exact running
  | cleared ended =>
      obtain ⟨groups, window⟩ := tied.ended ended
      refine .of_nothing groups window fun group key => ?_
      rw [StateStore.lookup_releaseStatement, if_pos rfl]

/-- Moves leave their statement tied to the store, which stays sound. -/
theorem Tied.moves
    (tied : Tied statement store)
    (sound : store.Sound)
    (moves : Moves statement store calls next left) :
    Tied next left ∧ left.Sound := by
  induction moves with
  | none => exact ⟨tied, sound⟩
  | more _ move inductionHypothesis =>
      obtain ⟨tiedBefore, soundBefore⟩ := inductionHypothesis
      refine ⟨tiedBefore.move soundBefore move, ?_⟩
      rw [move.performed]
      exact soundBefore.performAll _

/-- A move of one statement leaves the handles of the others where they are. -/
theorem Move.lookup_other
    (move : Move statement store calls next left)
    (sound : store.Sound)
    {other : StatementId}
    (different : other ≠ statement.id)
    (group : GroupKey)
    (key : StateKey) :
    left.lookup other group key = store.lookup other group key := by
  have opening : ∀ {opened occasion held obtained result}, statement.group? opened = none →
      statement.openGroup store opened occasion = (held, obtained, result) →
        obtained.lookup other group key = store.lookup other group key := by
    intro opened occasion held obtained result closed outcome
    have grows := grows_obtainAll sound statement.id opened occasion 0 statement.plan.aggregates
    rw [← openGroup_of_closed closed, outcome] at grows
    ext handle
    refine ⟨fun found => ?_, grows.kept⟩
    rcases grows.added found with before | ⟨isStatement, _⟩
    · exact before
    · exact absurd isStatement different
  cases move with
  | quiet same => rfl
  | opened running closed outcome =>
      exact opening closed outcome
  | aggregated row occasion running isOpen => exact lookup_aggregateRow isOpen
  | dropped dropped running =>
      change (store.releaseGroup statement.id dropped).1.lookup _ _ _ = _
      rw [StateStore.lookup_releaseGroup, if_neg]
      simp [StateStore.sameGroup, different.symm]
  | stopped running =>
      rw [stop_of_running running, StateStore.lookup_releaseStatement, if_neg different.symm]
  | failed running closed outcome same =>
      have unchanged := (eq_of_openGroup_error outcome).1
      rw [stop_of_running (by rw [same.stopped, unchanged, running]), same.id, unchanged,
        StateStore.lookup_releaseStatement, if_neg different.symm]
      exact opening closed outcome
  | cleared ended =>
      rw [StateStore.lookup_releaseStatement, if_neg different.symm]

/-- The handles of open groups are found at places of their statement and group. -/
theorem Tied.lookup_of_mem
    (tied : Tied statement store)
    {group : OpenGroup}
    (member : group ∈ statement.groups)
    {handle : StateHandle}
    (isHandle : handle ∈ group.handles) :
    ∃ key, store.lookup statement.id group.key key = some handle := by
  obtain ⟨position, inside, rfl⟩ := List.mem_iff_getElem.mp isHandle
  have found := tied.found group member
  exact ⟨_, found.get (found.length_eq ▸ inside) inside⟩

theorem obtain_of_mem_obtainCalls
    {id : StatementId}
    {key : GroupKey}
    {occasion : Occasion}
    {position : Nat}
    {aggregates : List AggregateSlot}
    {call : StoreCall}
    (member : call ∈ obtainCalls id key occasion store position aggregates) :
    ∃ handler moment, call = .obtain id key handler moment := by
  induction aggregates generalizing store position with
  | nil =>
      cases member
  | cons aggregate rest inductionHypothesis =>
      rcases List.mem_cons.mp member with rfl | later
      · exact ⟨_, _, rfl⟩
      · split at later
        next => cases later
        next => exact inductionHypothesis later

/-- Opening a group only asks for its states. -/
theorem obtain_of_mem_openCalls
    {key : GroupKey}
    {occasion : Occasion}
    {call : StoreCall}
    (member : call ∈ statement.openCalls store key occasion) :
    ∃ handler moment, call = .obtain statement.id key handler moment := by
  rw [openCalls] at member
  split at member
  next => cases member
  next => exact obtain_of_mem_obtainCalls member

/-- Only a move that aggregates a row uses states. -/
theorem Move.unused_or_aggregated
    (move : Move statement store calls next left) :
    (∀ call ∈ calls, ∀ handle, ¬ call.Uses handle) ∨
      ∃ key group row occasion, statement.group? key = some group ∧
        calls = statement.aggregateCalls store key group.handles row occasion := by
  have releases : ∀ call ∈ [StoreCall.releaseStatement statement.id],
      ∀ handle, ¬ call.Uses handle := by
    intro call member handle uses
    cases List.mem_singleton.mp member
    cases uses
  have opens : ∀ {key occasion}, ∀ call ∈ statement.openCalls store key occasion,
      ∀ handle, ¬ call.Uses handle := by
    intro key occasion call member handle uses
    obtain ⟨handler, moment, rfl⟩ := obtain_of_mem_openCalls member
    cases uses
  cases move with
  | quiet same => exact .inl fun _ member => nomatch member
  | opened running closed outcome => exact .inl opens
  | aggregated row occasion running isOpen => exact .inr ⟨_, _, row, occasion, isOpen, rfl⟩
  | dropped key running =>
      refine .inl fun call member handle uses => ?_
      cases List.mem_singleton.mp member
      cases uses
  | stopped running => exact .inl releases
  | failed running closed outcome same =>
      refine .inl fun call member => ?_
      rcases List.mem_append.mp member with opening | stopping
      · exact opens call opening
      · exact releases call stopping
  | cleared ended => exact .inl releases

/-- The states that are used in a move are those of open groups. -/
theorem Move.handle_of_uses
    (move : Move statement store calls next left)
    {call : StoreCall}
    (member : call ∈ calls)
    {handle : StateHandle}
    (uses : call.Uses handle) :
    ∃ group ∈ statement.groups, handle ∈ group.handles := by
  rcases move.unused_or_aggregated with unused | ⟨key, opened, row, occasion, isOpen, rfl⟩
  · exact absurd uses (unused call member handle)
  · obtain ⟨group, inGroups, used, isHandle, usesToo⟩ := uses_of_mem_aggregateCalls isOpen member
    exact ⟨group, inGroups, uses.unique usesToo ▸ isHandle⟩

/-- No move reads a state that is gone. -/
theorem Move.answered
    (move : Move statement store calls next left)
    (tied : Tied statement store)
    (sound : store.Sound) :
    ∀ entry ∈ store.trace calls, entry.2 ≠ .result none := by
  rcases move.unused_or_aggregated with unused | ⟨key, opened, row, occasion, isOpen, rfl⟩
  · refine StateStore.answer_of_no_read fun call member handle handler isRead => ?_
    subst isRead
    exact unused _ member handle rfl
  · refine sound.answer_of_uses fun call member => ?_
    obtain ⟨group, inGroups, handle, isHandle, uses⟩ := uses_of_mem_aggregateCalls isOpen member
    obtain ⟨key, found⟩ := tied.lookup_of_mem inGroups isHandle
    exact ⟨handle, _, _, key, uses, found⟩

/-- No row of an open group finds a state gone. -/
theorem Tied.aggregateRow_found
    {key : GroupKey}
    {group : OpenGroup}
    (tied : Tied statement store)
    (sound : store.Sound)
    (running : statement.stopped = false)
    (isOpen : statement.group? key = some group)
    (row : Row)
    (occasion : Occasion) :
    (statement.aggregateRow store key group.handles row occasion).2.2 ≠ .stateGone := by
  have answered := (Move.aggregated row occasion running isOpen).answered tied sound
  intro gone
  rcases entering : enterAll row (2 :: occasion) store 0
    (statement.distinctHandles group.handles) with ⟨grown, entered, fault⟩
  rcases sliding : statement.slideWindow grown ⟨row, key, entered⟩ (3 :: occasion) with
    ⟨slid, shrunk⟩
  simp only [aggregateRow, entering, sliding] at gone
  cases fault with
  | some fault => cases gone
  | none =>
      rcases results : readAll shrunk statement.plan.aggregates group.handles with _ | results
      · obtain ⟨entry, isEntry, isGone⟩ := (readAll_eq_none_iff _ _ _).mp results
        refine answered entry ?_ isGone
        have isShrunk : (store.performAll (enterCalls row (2 :: occasion) store 0
            (statement.distinctHandles group.handles))).performAll
              (statement.expireCalls (3 :: occasion) 0 (statement.pushedOut ⟨row, key, entered⟩)) =
                shrunk := by
          rw [performAll_enterCalls, entering, performAll_slideCalls, sliding]
        simp only [aggregateCalls, entering, sliding, StateStore.trace_append, isShrunk,
          StateStore.performAll_append]
        exact List.mem_append_right _ isEntry
      · rw [results] at gone
        simp only [Plan.project] at gone
        split at gone <;> cases gone

/-- No row finds a state gone. -/
theorem Tied.evaluateRow_found
    (tied : Tied statement store)
    (sound : store.Sound)
    (running : statement.stopped = false)
    (row : Row)
    (occasion : Occasion) :
    (statement.evaluateRow store row occasion).2.2 ≠ .ok .stateGone := by
  intro gone
  rw [evaluateRow] at gone
  rcases selecting : statement.plan.select? row occasion with fault | _ | key
  · simp [selecting] at gone
  · simp [selecting] at gone
  · simp only [selecting] at gone
    split at gone
    next =>
        simp only [Plan.project] at gone
        split at gone <;> cases gone
    next =>
        rcases opening : statement.openGroup store key (5 :: occasion) with
          ⟨opened, obtained, error | handles⟩
        · simp [opening] at gone
        · simp only [opening, Except.ok.injEq] at gone
          obtain ⟨group, isOpen, rfl⟩ := group?_of_openGroup opening
          obtain ⟨stillRunning, moves⟩ := moves_openGroup running opening
          obtain ⟨tiedAfter, soundAfter⟩ := tied.moves sound moves
          exact tiedAfter.aggregateRow_found soundAfter stillRunning isOpen row occasion gone

end Changing

end Statement

end EventQuery
