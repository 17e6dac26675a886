import EventQuery.Proofs.Statement.Frame
import EventQuery.Proofs.Statement.Steady
import EventQuery.Proofs.Statement.Tied
import EventQuery.Proofs.Store.States

namespace EventQuery

/-!
# Alike states

Two statements that may have different numbers, in different stores, are compared by the states of
the groups that are looked at.  Where these are equal and steady, the same rows do the same to them
in both stores, whatever else the stores hold.
-/

/-- An error in which the report of a failed creation is worded in another way. -/
def ActivationError.relabel (rename : String → String) : ActivationError → ActivationError
  | .creationFailed function report => .creationFailed function (rename report)
  | other => other

/--
Whether a function takes two statements alike: it creates the same states for both, and the reports
of failures differ in their wording only.
-/
def AggregateHandler.Relabels (handler : AggregateHandler) (rename : String → String)
    (first second : StatementId) : Prop :=
  ∀ occasion group,
    handler.create occasion second group = (handler.create occasion first group).mapError rename

/-- A function that always creates the same state takes all statements alike. -/
theorem AggregateHandler.Creates.relabels
    {handler : AggregateHandler}
    {state : AggregateState}
    (creates : handler.Creates state)
    (rename : String → String)
    (first second : StatementId) :
    handler.Relabels rename first second := by
  intro occasion group
  rw [creates, creates]
  rfl

section Stores

variable {visible : GroupKey → Prop} {first second : StatementId} {store other : StateStore}
  {group : GroupKey}

/-- Whether some groups of two statements have equal steady states in their stores. -/
structure StateStore.Alike (visible : GroupKey → Prop) (first : StatementId) (store : StateStore)
    (second : StatementId) (other : StateStore) : Prop where
  sound : store.Sound
  otherSound : other.Sound
  states :
    ∀ group, visible group → ∀ key,
      store.stateAt first group key = other.stateAt second group key
  steady :
    ∀ group, visible group → ∀ key state,
      store.stateAt first group key = some state → state.Steady

/-- Whether handles in two stores are found at the same places of a group. -/
abbrev StateStore.SamePlaces (first : StatementId) (store : StateStore) (second : StatementId)
    (other : StateStore) (group : GroupKey) (handles others : List StateHandle) : Prop :=
  List.Forall₂
    (fun handle otherHandle => ∃ key,
      store.lookup first group key = some handle ∧ other.lookup second group key = some otherHandle)
    handles others

namespace StateStore.Alike

theorem symm
    (alike : Alike visible first store second other) :
    Alike visible second other first store where
  sound := alike.otherSound
  otherSound := alike.sound
  states := fun group isVisible key => (alike.states group isVisible key).symm
  steady := fun group isVisible key state found =>
    alike.steady group isVisible key state ((alike.states group isVisible key).trans found)

/-- Only the states of the groups that are looked at matter. -/
theorem of_sameStates
    {left : StateStore}
    (alike : Alike visible first store second other)
    (sound : left.Sound)
    (same : ∀ group, visible group → ∀ key,
      left.stateAt first group key = store.stateAt first group key) :
    Alike visible first left second other where
  sound := sound
  otherSound := alike.otherSound
  states := fun group isVisible key =>
    (same group isVisible key).trans (alike.states group isVisible key)
  steady := fun group isVisible key state found =>
    alike.steady group isVisible key state ((same group isVisible key).symm.trans found)

/-- The same change of states at the same place has the same outcome. -/
theorem update
    (alike : Alike visible first store second other)
    (isVisible : visible group)
    {key : StateKey}
    {handle otherHandle : StateHandle}
    (found : store.lookup first group key = some handle)
    (otherFound : other.lookup second group key = some otherHandle)
    {change otherChange : AggregateState → AggregateState × Option Fault}
    (same : ∀ state, state.Steady → change state = otherChange state)
    (keeps : ∀ state, state.Steady → (change state).1.Steady) :
    (store.update handle change).2 = (other.update otherHandle otherChange).2 ∧
      Alike visible first (store.update handle change).1 second
        (other.update otherHandle otherChange).1 := by
  obtain ⟨state, isState, told, places⟩ := alike.sound.update_at found change
  obtain ⟨otherState, isOther, otherTold, otherPlaces⟩ :=
    alike.otherSound.update_at otherFound otherChange
  obtain rfl : state = otherState := by
    rw [alike.states group isVisible key, isOther] at isState
    exact (Option.some.inj isState).symm
  have steady := alike.steady group isVisible key state isState
  have equal := same state steady
  refine ⟨by rw [told, otherTold, equal], ?_⟩
  constructor
  · exact alike.sound.update handle change
  · exact alike.otherSound.update otherHandle otherChange
  · intro otherGroup otherVisible otherKey
    rw [places, otherPlaces, equal, alike.states otherGroup otherVisible otherKey]
    simp only [sameGroup, beq_self_eq_true]
  · intro otherGroup otherVisible otherKey after isAfter
    rw [places] at isAfter
    split at isAfter
    next =>
        cases isAfter
        exact keeps state steady
    next => exact alike.steady otherGroup otherVisible otherKey after isAfter

/-- A row enters the states at the same place with the same fault, if any. -/
theorem enter
    (alike : Alike visible first store second other)
    (isVisible : visible group)
    {key : StateKey}
    {handle otherHandle : StateHandle}
    (found : store.lookup first group key = some handle)
    (otherFound : other.lookup second group key = some otherHandle)
    (row : Row)
    (occasion otherOccasion : Occasion) :
    (store.enter handle row occasion).2 = (other.enter otherHandle row otherOccasion).2 ∧
      Alike visible first (store.enter handle row occasion).1 second
        (other.enter otherHandle row otherOccasion).1 :=
  alike.update isVisible found otherFound
    (fun _ steady => steady.enter row occasion otherOccasion)
    fun _ steady => steady.after_enter row occasion

theorem leave
    (alike : Alike visible first store second other)
    (isVisible : visible group)
    {key : StateKey}
    {handle otherHandle : StateHandle}
    (found : store.lookup first group key = some handle)
    (otherFound : other.lookup second group key = some otherHandle)
    (row : Row)
    (occasion otherOccasion : Occasion) :
    Alike visible first (store.leave handle row occasion).1 second
      (other.leave otherHandle row otherOccasion).1 :=
  (alike.update isVisible found otherFound
    (fun _ steady => steady.leave row occasion otherOccasion)
    fun _ steady => steady.after_leave row occasion).2

/-- The same state is handed out in both stores, or its creation fails in both. -/
theorem obtain
    {rename : String → String}
    (alike : Alike visible first store second other)
    (isVisible : visible group)
    {handler : AggregateHandler}
    (steady : handler.Steady)
    (relabels : handler.Relabels rename first second)
    (occasion otherOccasion : Occasion) :
    (∃ obtained handle otherObtained otherHandle,
      store.obtain first group handler occasion = (obtained, .ok handle) ∧
        other.obtain second group handler otherOccasion = (otherObtained, .ok otherHandle) ∧
          Alike visible first obtained second otherObtained) ∨
    ∃ error obtained otherObtained,
      store.obtain first group handler occasion = (obtained, .error error) ∧
        other.obtain second group handler otherOccasion =
          (otherObtained, .error (error.relabel rename)) := by
  have demands : other.demanded second group handler otherOccasion =
      (store.demanded first group handler occasion).mapError rename := by
    rw [demanded, demanded, alike.states group isVisible]
    cases other.stateAt second group handler.key with
    | some state => rfl
    | none =>
        rw [relabels otherOccasion group, steady.create otherOccasion occasion first group]
  have created : ∀ state, store.demanded first group handler occasion = .ok state →
      state.Steady := by
    intro state isState
    rw [demanded] at isState
    split at isState
    next held isHeld =>
        cases isState
        exact alike.steady group isVisible _ _ isHeld
    next => exact steady.created isState
  rcases demanding : store.demanded first group handler occasion with report | state
  · rw [demanding] at demands
    obtain ⟨obtained, same, _⟩ := alike.sound.obtain_of_refused demanding
    obtain ⟨otherObtained, otherSame, _⟩ := alike.otherSound.obtain_of_refused demands
    exact .inr ⟨_, obtained, otherObtained, same, otherSame⟩
  · rw [demanding] at demands
    obtain ⟨obtained, handle, same, places⟩ := alike.sound.obtain_of_demanded demanding
    obtain ⟨otherObtained, otherHandle, otherSame, otherPlaces⟩ :=
      alike.otherSound.obtain_of_demanded demands
    have sound := alike.sound.obtain first group handler occasion
    have otherSound := alike.otherSound.obtain second group handler otherOccasion
    rw [same] at sound
    rw [otherSame] at otherSound
    refine .inl ⟨obtained, handle, otherObtained, otherHandle, same, otherSame, sound, otherSound,
      ?_, ?_⟩
    · intro otherGroup otherVisible otherKey
      rw [places, otherPlaces, alike.states otherGroup otherVisible otherKey]
      simp only [sameGroup, beq_self_eq_true]
    · intro otherGroup otherVisible otherKey after isAfter
      rw [places] at isAfter
      split at isAfter
      next =>
          cases isAfter
          exact created state demanding
      next => exact alike.steady otherGroup otherVisible otherKey after isAfter

end StateStore.Alike

end Stores

namespace Statement

section Rows

variable {visible : GroupKey → Prop} {first second : StatementId} {store other : StateStore}
  {group : GroupKey} {handles others : List StateHandle}

open StateStore (SamePlaces)

/-- Rows enter states without moving any handle. -/
theorem lookup_enterAll
    (row : Row)
    (occasion : Occasion)
    (entered : Nat)
    (id : StatementId)
    (group : GroupKey)
    (key : StateKey) :
    (enterAll row occasion store entered handles).1.lookup id group key =
      store.lookup id group key := by
  rw [← performAll_enterCalls]
  refine StateStore.lookup_performAll_of_uses fun call member => ?_
  obtain ⟨handle, _, uses⟩ := uses_of_mem_enterCalls member
  exact ⟨handle, uses⟩

theorem lookup_leaveAll
    (row : Row)
    (occasion : Occasion)
    (left : Nat)
    (id : StatementId)
    (group : GroupKey)
    (key : StateKey) :
    (leaveAll row occasion store left handles).lookup id group key = store.lookup id group key := by
  rw [← performAll_leaveCalls]
  refine StateStore.lookup_performAll_of_uses fun call member => ?_
  obtain ⟨handle, _, uses⟩ := uses_of_mem_leaveCalls member
  exact ⟨handle, uses⟩

/-- Handles stay at the same places while none is moved. -/
theorem samePlaces_of_lookup
    {left otherLeft : StateStore}
    (places : SamePlaces first store second other group handles others)
    (same : ∀ group key, left.lookup first group key = store.lookup first group key)
    (otherSame :
      ∀ group key, otherLeft.lookup second group key = other.lookup second group key) :
    SamePlaces first left second otherLeft group handles others :=
  places.imp fun _ _ ⟨key, found, otherFound⟩ =>
    ⟨key, (same group key).trans found, (otherSame group key).trans otherFound⟩

theorem alike_enterAll
    (alike : StateStore.Alike visible first store second other)
    (isVisible : visible group)
    (places : SamePlaces first store second other group handles others)
    (row : Row)
    (occasion otherOccasion : Occasion)
    (entered : Nat) :
    (enterAll row occasion store entered handles).2 =
        (enterAll row otherOccasion other entered others).2 ∧
      StateStore.Alike visible first (enterAll row occasion store entered handles).1 second
        (enterAll row otherOccasion other entered others).1 := by
  induction handles generalizing store other others entered with
  | nil =>
      cases places
      exact ⟨rfl, alike⟩
  | cons handle rest inductionHypothesis =>
      cases places with
      | @cons _ otherHandle _ otherRest atPlace places =>
          obtain ⟨key, found, otherFound⟩ := atPlace
          have now := alike.enter isVisible found otherFound row (entered :: occasion)
            (entered :: otherOccasion)
          have later := inductionHypothesis now.2
            (samePlaces_of_lookup places (fun _ _ => StateStore.lookup_update)
              fun _ _ => StateStore.lookup_update) (entered + 1)
          rcases entering : store.enter handle row (entered :: occasion) with ⟨changed, fault⟩
          rcases otherEntering : other.enter otherHandle row (entered :: otherOccasion) with
            ⟨otherChanged, otherFault⟩
          rw [entering, otherEntering] at now later
          obtain ⟨rfl, alikeNow⟩ : fault = otherFault ∧ _ := now
          cases fault with
          | none =>
              simp only [enterAll, entering, otherEntering]
              exact later
          | some fault =>
              simp only [enterAll, entering, otherEntering]
              exact ⟨trivial, alikeNow⟩

/-- Rows leave states alike. -/
theorem alike_leaveAll
    (alike : StateStore.Alike visible first store second other)
    (isVisible : visible group)
    (places : SamePlaces first store second other group handles others)
    (row : Row)
    (occasion otherOccasion : Occasion)
    (left : Nat) :
    StateStore.Alike visible first (leaveAll row occasion store left handles) second
      (leaveAll row otherOccasion other left others) := by
  induction handles generalizing store other others left with
  | nil =>
      cases places
      exact alike
  | cons handle rest inductionHypothesis =>
      cases places with
      | cons atPlace places =>
          obtain ⟨key, found, otherFound⟩ := atPlace
          exact inductionHypothesis
            (alike.leave isVisible found otherFound row (left :: occasion) (left :: otherOccasion))
            (samePlaces_of_lookup places (fun _ _ => StateStore.lookup_update)
              fun _ _ => StateStore.lookup_update) (left + 1)

/-- All states of a group are handed out in both stores, or one cannot be created in both. -/
theorem alike_obtainAll
    {rename : String → String}
    {aggregates : List AggregateSlot}
    (alike : StateStore.Alike visible first store second other)
    (isVisible : visible group)
    (steady : ∀ aggregate ∈ aggregates, aggregate.handler.Steady)
    (relabels : ∀ aggregate ∈ aggregates, aggregate.handler.Relabels rename first second)
    (occasion otherOccasion : Occasion)
    (position : Nat) :
    (∃ obtained handles otherObtained others,
      obtainAll first group occasion store position aggregates = (obtained, .ok handles) ∧
        obtainAll second group otherOccasion other position aggregates =
          (otherObtained, .ok others) ∧
        StateStore.Alike visible first obtained second otherObtained) ∨
    ∃ error obtained otherObtained,
      obtainAll first group occasion store position aggregates = (obtained, .error error) ∧
        obtainAll second group otherOccasion other position aggregates =
          (otherObtained, .error (error.relabel rename)) := by
  induction aggregates generalizing store other position with
  | nil => exact .inl ⟨store, [], other, [], rfl, rfl, alike⟩
  | cons aggregate rest inductionHypothesis =>
      rw [List.forall_mem_cons] at steady relabels
      obtain ⟨obtained, handle, otherObtained, otherHandle, same, otherSame, alikeNow⟩ |
        ⟨error, obtained, otherObtained, same, otherSame⟩ :=
        alike.obtain isVisible steady.1 relabels.1 (position :: occasion)
          (position :: otherOccasion)
      · obtain ⟨last, handles, otherLast, others, later, otherLater, alikeLater⟩ |
          ⟨error, last, otherLast, later, otherLater⟩ :=
          inductionHypothesis alikeNow steady.2 relabels.2 (position + 1)
        · refine .inl ⟨last, handle :: handles, otherLast, otherHandle :: others, ?_, ?_, alikeLater⟩
          · simp only [obtainAll, same, later]
          · simp only [obtainAll, otherSame, otherLater]
        · refine .inr ⟨error, last, otherLast, ?_, ?_⟩
          · simp only [obtainAll, same, later]
          · simp only [obtainAll, otherSame, otherLater]
      · refine .inr ⟨error, obtained, otherObtained, ?_, ?_⟩
        · simp only [obtainAll, same]
        · simp only [obtainAll, otherSame]

/-- The results of a group are those in the states at its places. -/
theorem readAll_eq_stateAt
    {aggregates : List AggregateSlot}
    (sound : store.Sound)
    (found : HandlesFound store first group aggregates handles) :
    readAll store aggregates handles =
      aggregates.mapM fun aggregate =>
        (store.stateAt first group aggregate.handler.key).map aggregate.handler.read := by
  rw [readAll]
  induction found with
  | nil => rfl
  | cons atPlace _ inductionHypothesis =>
      rw [List.zip_cons_cons, List.mapM_cons, List.mapM_cons, inductionHypothesis,
        ← sound.read?_eq_stateAt atPlace]

theorem readAll_eq_of_alike
    {aggregates : List AggregateSlot}
    (alike : StateStore.Alike visible first store second other)
    (isVisible : visible group)
    (found : HandlesFound store first group aggregates handles)
    (otherFound : HandlesFound other second group aggregates others) :
    readAll store aggregates handles = readAll other aggregates others := by
  rw [readAll_eq_stateAt alike.sound found, readAll_eq_stateAt alike.otherSound otherFound]
  simp only [alike.states group isVisible]

/-- Handles of the same aggregations of a group are at the same places. -/
theorem samePlaces_of_found
    {aggregates : List AggregateSlot}
    (found : HandlesFound store first group aggregates handles)
    (otherFound : HandlesFound other second group aggregates others) :
    SamePlaces first store second other group handles others := by
  induction found generalizing others with
  | nil =>
      cases otherFound
      exact .nil
  | cons atPlace _ inductionHypothesis =>
      cases otherFound with
      | cons otherAtPlace rest => exact .cons ⟨_, atPlace, otherAtPlace⟩ (inductionHypothesis rest)

/-- Whatever positions are picked, the handles there are at the same places. -/
theorem samePlaces_filterMap
    (places : SamePlaces first store second other group handles others)
    (positions : List Nat) :
    SamePlaces first store second other group
      (positions.filterMap fun position => handles[position]?)
      (positions.filterMap fun position => others[position]?) := by
  induction positions with
  | nil => exact .nil
  | cons position rest inductionHypothesis =>
      rcases Nat.lt_or_ge position handles.length with inside | outside
      · have otherInside : position < others.length := places.length_eq ▸ inside
        rw [List.filterMap_cons_some (List.getElem?_eq_getElem inside),
          List.filterMap_cons_some (List.getElem?_eq_getElem otherInside)]
        exact .cons (places.get inside otherInside) inductionHypothesis
      · have otherOutside : others.length ≤ position := places.length_eq ▸ outside
        rw [List.filterMap_cons_none (List.getElem?_eq_none outside),
          List.filterMap_cons_none (List.getElem?_eq_none otherOutside)]
        exact inductionHypothesis

end Rows

end Statement

end EventQuery
