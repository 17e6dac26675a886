import EventQuery.Proofs.Statement.Apart
import EventQuery.Proofs.Store.Laws

namespace EventQuery

/-- Whether all states that are created for a key of a statement obey a law without any row. -/
def Plan.Begins (plan : Plan) (id : StatementId) (key : StateKey) (law : StateLaw) : Prop :=
  ∀ first ∈ plan.aggregates.find? (fun aggregate => aggregate.handler.key == key),
    ∀ {occasion group state}, first.handler.create occasion id group = .ok state → law state []

namespace Statement

/-!
# Lawful states of statements

The states of a statement for one key are created by the first aggregation with this key, whichever
others share them.  So a law that updates keep, and that the states of this aggregation obey in the
beginning, tells at every moment what the states of all groups are for the rows that they hold.
-/

/-- All states of a statement obey all laws that they begin with and that updates keep. -/
def Lawful (statement : Statement) (store : StateStore) (trace : StoreTrace) : Prop :=
  ∀ (law : StateLaw) (key : StateKey), law.Kept → statement.plan.Begins statement.id key law →
    ∀ group, store.Obeys trace law statement.id group key

section Places

variable {store : StateStore}

/-- Asking for the states of a group leaves those that are there. -/
theorem stateAt_obtainAll
    {other : StatementId}
    {otherGroup : GroupKey}
    {stateKey : StateKey}
    {state : AggregateState}
    (sound : store.Sound)
    (present : store.stateAt other otherGroup stateKey = some state)
    (id : StatementId)
    (key : GroupKey)
    (occasion : Occasion)
    (position : Nat)
    (aggregates : List AggregateSlot) :
    (obtainAll id key occasion store position aggregates).1.stateAt other otherGroup stateKey =
      some state := by
  induction aggregates generalizing store position with
  | nil => exact present
  | cons aggregate rest inductionHypothesis =>
      have soundAfter := sound.obtain id key aggregate.handler (position :: occasion)
      have presentAfter := sound.stateAt_obtain present id key aggregate.handler
        (position :: occasion)
      rcases obtaining : store.obtain id key aggregate.handler (position :: occasion) with
        ⟨obtained, error | handle⟩
      · rw [obtaining] at presentAfter
        simp only [obtainAll, obtaining]
        exact presentAfter
      · rw [obtaining] at presentAfter soundAfter
        have others := inductionHypothesis soundAfter presentAfter (position + 1)
        rcases further : obtainAll id key occasion obtained (position + 1) rest with
          ⟨last, error | handles⟩ <;>
          · rw [further] at others
            simp only [obtainAll, obtaining, further]
            exact others

/-- A state that was missing is created by the first aggregation with its key. -/
theorem created_of_obtainAll
    {id : StatementId}
    {key : GroupKey}
    {occasion : Occasion}
    {position : Nat}
    {aggregates : List AggregateSlot}
    {stateKey : StateKey}
    {state : AggregateState}
    (sound : store.Sound)
    (absent : store.stateAt id key stateKey = none)
    (present : (obtainAll id key occasion store position aggregates).1.stateAt id key stateKey =
      some state) :
    ∃ first moment,
      aggregates.find? (fun aggregate => aggregate.handler.key == stateKey) = some first ∧
        first.handler.create moment id key = .ok state := by
  induction aggregates generalizing store position with
  | nil => cases absent.symm.trans present
  | cons aggregate rest inductionHypothesis =>
      have soundAfter := sound.obtain id key aggregate.handler (position :: occasion)
      rcases demanding : store.demanded id key aggregate.handler (position :: occasion) with
        report | created
      · obtain ⟨obtained, same, places⟩ := sound.obtain_of_refused demanding
        simp only [obtainAll, same] at present
        cases (absent.symm.trans (places id key stateKey).symm).trans present
      · obtain ⟨obtained, handle, same, places⟩ := sound.obtain_of_demanded demanding
        rw [same] at soundAfter
        have presentLater :
            (obtainAll id key occasion obtained (position + 1) rest).1.stateAt id key stateKey =
              some state := by
          rcases further : obtainAll id key occasion obtained (position + 1) rest with
            ⟨last, error | handles⟩ <;>
            · simp only [obtainAll, same, further] at present
              exact present
        by_cases isKey : aggregate.handler.key = stateKey
        · subst isKey
          have isCreated : obtained.stateAt id key aggregate.handler.key = some created := by
            rw [places, if_pos (by simp [StateStore.sameGroup])]
          have later := stateAt_obtainAll soundAfter isCreated id key occasion (position + 1) rest
          obtain rfl := Option.some.inj (later.symm.trans presentLater)
          rw [StateStore.demanded, absent] at demanding
          exact ⟨aggregate, _, List.find?_cons_of_pos (beq_self_eq_true _), demanding⟩
        · have stillAbsent : obtained.stateAt id key stateKey = none := by
            rw [places, if_neg (by simp [isKey]), absent]
          rw [List.find?_cons_of_neg (by simpa using isKey)]
          exact inductionHypothesis soundAfter stillAbsent presentLater

/-- The result of each aggregation is read from the state at its place. -/
theorem get_of_readAll
    {id : StatementId}
    {group : GroupKey}
    {aggregates : List AggregateSlot}
    {handles : List StateHandle}
    {results : Row}
    {position : Nat}
    {aggregate : AggregateSlot}
    (sound : store.Sound)
    (found : HandlesFound store id group aggregates handles)
    (read : readAll store aggregates handles = some results)
    (isAggregate : aggregates[position]? = some aggregate) :
    ∃ state, store.stateAt id group aggregate.handler.key = some state ∧
      results.get position = aggregate.handler.read state := by
  rw [readAll] at read
  induction found generalizing results position with
  | nil => cases isAggregate
  | @cons _ handle _ _ atPlace _ inductionHypothesis =>
      rw [List.zip_cons_cons, List.mapM_cons] at read
      obtain ⟨value, isValue, read⟩ := Option.bind_eq_some_iff.mp read
      obtain ⟨others, areOthers, read⟩ := Option.bind_eq_some_iff.mp read
      cases read
      rcases position with _ | position
      · cases isAggregate
        change store.read? handle aggregate.handler = some value at isValue
        rw [sound.read?_eq_stateAt atPlace] at isValue
        obtain ⟨state, isState, rfl⟩ := Option.map_eq_some_iff.mp isValue
        exact ⟨state, isState, rfl⟩
      · rw [List.getElem?_cons_succ] at isAggregate
        obtain ⟨state, isState, isRead⟩ := inductionHypothesis areOthers isAggregate
        exact ⟨state, isState, isRead⟩

end Places

namespace Lawful

variable {statement next : Statement} {store left : StateStore} {trace : StoreTrace}
  {calls : List StoreCall}

/-- A statement for which nothing is held is lawful. -/
theorem of_nothing
    (nothing : ∀ group key, store.lookup statement.id group key = none) :
    Lawful statement store trace := by
  intro law key _ _ group handle state found
  cases (nothing group key).symm.trans found

theorem of_same
    (lawful : Lawful statement store trace)
    (sameId : next.id = statement.id)
    (samePlan : next.plan = statement.plan) :
    Lawful next store trace := by
  rw [Lawful, sameId, samePlan]
  exact lawful

/-- Opening a group creates states that begin with the law. -/
theorem opened
    {obtained : StateStore}
    {key : GroupKey}
    {occasion : Occasion}
    {handles : List StateHandle}
    (lawful : Lawful statement store trace)
    (sound : store.Sound)
    (fresh : ∀ serial, store.next ≤ serial → trace.entered serial = [] ∧ trace.left serial = [])
    (closed : statement.group? key = none)
    (outcome : statement.openGroup store key occasion = (next, obtained, .ok handles)) :
    Lawful next obtained (trace ++ store.trace (statement.openCalls store key occasion)) := by
  obtain ⟨rfl, obtaining⟩ := eq_of_openGroup_ok closed outcome
  have grows := grows_obtainAll sound statement.id key occasion 0 statement.plan.aggregates
  have untouched : ∀ serial,
      (store.trace (statement.openCalls store key occasion)).entered serial = [] ∧
        (store.trace (statement.openCalls store key occasion)).left serial = [] := fun serial => by
    refine StateStore.trace_untouched fun call member handle uses => ?_
    obtain ⟨handler, moment, rfl⟩ := obtain_of_mem_openCalls member
    cases uses
  intro law stateKey kept begins group
  rcases before : store.lookup statement.id group stateKey with _ | known
  · -- the state is new
    have absent : store.stateAt statement.id group stateKey = none := by
      rw [← Option.isNone_iff_eq_none, ← Option.not_isSome, StateStore.stateAt_isSome, before]
      simp
    intro handle state found present
    rw [obtaining] at grows
    rcases grows.added found with early | ⟨_, inGroup, _, new⟩
    · cases before.symm.trans early
    · rw [← StateStore.stateAt_congr inGroup] at absent present
      rw [show obtained = _ from (congrArg Prod.fst obtaining).symm] at present
      obtain ⟨first, moment, isFirst, created⟩ := created_of_obtainAll sound absent present
      refine ⟨[], ?_, begins first isFirst created⟩
      rw [StoreTrace.entered_append, StoreTrace.left_append, (untouched _).1, (untouched _).2,
        (fresh _ new).1, (fresh _ new).2]
      rfl
  · obtain ⟨state, atPlace⟩ : ∃ state, store.stateAt statement.id group stateKey = some state := by
      rw [← Option.isSome_iff_exists, StateStore.stateAt_isSome, before]
      rfl
    have stays := stateAt_obtainAll sound atPlace statement.id key occasion 0
      statement.plan.aggregates
    rw [obtaining] at grows stays
    exact (lawful law stateKey kept begins group).untouched
      ((grows.kept before).trans before.symm) (stays.trans atPlace.symm) fun _ _ => untouched _

/-- Every move leaves its statement lawful. -/
theorem move
    (lawful : Lawful statement store trace)
    (tied : Tied statement store)
    (sound : store.Sound)
    (fresh : ∀ serial, store.next ≤ serial → trace.entered serial = [] ∧ trace.left serial = [])
    (ordered : (trace ++ store.trace calls).FirstInFirstOut)
    (move : Move statement store calls next left) :
    Lawful next left (trace ++ store.trace calls) := by
  have isSame := move.same
  have performed := move.performed
  cases move with
  | quiet same =>
      rw [StateStore.trace, List.append_nil]
      exact lawful.of_same isSame.1 isSame.2
  | opened running closed outcome => exact lawful.opened sound fresh closed outcome
  | aggregated row occasion running isOpen =>
      refine of_same (fun law key kept begins group => ?_) isSame.1 isSame.2
      rw [performed]
      refine (lawful law key kept begins group).performAll kept sound ordered fun call member => ?_
      obtain ⟨held, isHeld, handle, isHandle, uses⟩ := uses_of_mem_aggregateCalls isOpen member
      obtain ⟨stateKey, found⟩ := tied.lookup_of_mem isHeld isHandle
      exact ⟨handle, statement.id, held.key, stateKey, uses, found⟩
  | dropped dropped running =>
      intro law key kept begins group
      change StateStore.Obeys (store.releaseGroup statement.id dropped).1 _ _ _ _ _
      rcases isDropped : StateStore.sameGroup statement.id dropped statement.id group with _ | _
      · have elsewhere := Bool.eq_false_iff.mp isDropped
        refine (lawful law key kept begins group).untouched
          (StateStore.lookup_releaseGroup.trans (if_neg elsewhere))
          (StateStore.stateAt_releaseGroup.trans (if_neg elsewhere)) fun _ _ => ?_
        refine StateStore.trace_untouched fun call member used uses => ?_
        cases List.mem_singleton.mp member
        cases uses
      · intro handle state found
        cases (StateStore.lookup_releaseGroup.trans (if_pos isDropped)).symm.trans found
  | stopped running =>
      rw [stop_of_running running]
      exact .of_nothing fun group key => StateStore.lookup_releaseStatement.trans (if_pos rfl)
  | failed running closed outcome same =>
      have unchanged := (eq_of_openGroup_error outcome).1
      rw [stop_of_running (by rw [same.stopped, unchanged, running])]
      exact .of_nothing fun group key => StateStore.lookup_releaseStatement.trans (if_pos rfl)
  | cleared ended =>
      exact .of_nothing fun group key => StateStore.lookup_releaseStatement.trans (if_pos rfl)

/-- A move of another statement leaves a statement lawful. -/
theorem move_other
    {other : Statement}
    (lawful : Lawful other store trace)
    (tied : Tied statement store)
    (sound : store.Sound)
    (different : other.id ≠ statement.id)
    (move : Move statement store calls next left) :
    Lawful other left (trace ++ store.trace calls) := by
  intro law key kept begins group
  refine (lawful law key kept begins group).untouched (move.lookup_other sound different group key)
    (tied.sameStates_move sound move different other.id group rfl key) fun handle found => ?_
  refine StateStore.trace_untouched fun call member used uses same => ?_
  obtain ⟨opened, isOpen, isHandle⟩ := move.handle_of_uses member uses
  obtain ⟨usedKey, foundToo⟩ := tied.lookup_of_mem isOpen isHandle
  exact different (sound.place_of_serial foundToo found same).1.symm

end Lawful

end Statement

end EventQuery
