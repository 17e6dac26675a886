import EventQuery.Proofs.Store.Instances
import EventQuery.Proofs.Store.Lookups

namespace EventQuery

/-!
# Lifetimes of handles

A handle is given out when a state is obtained or looked up.  From then on it reads what the calls
through handles of the same state have made of that state, until the group or the statement is
released; handles of other places do nothing to it, and once it is dead nothing brings it back.
-/

namespace StoreCall

/-- Whether the call asks for a handle of a place. -/
def AsksFor (call : StoreCall) (statement : StatementId) (group : GroupKey) (key : StateKey) :
    Prop :=
  match call with
  | .obtain asked askedGroup handler _ =>
      asked = statement ∧ askedGroup = group ∧ handler.key = key
  | .lookup asked askedGroup askedKey =>
      asked = statement ∧ askedGroup = group ∧ askedKey = key
  | _ => False

/-- Whether the call releases a group of a statement. -/
def Releases (call : StoreCall) (statement : StatementId) (group : GroupKey) : Prop :=
  match call with
  | .releaseGroup other otherGroup => StateStore.sameGroup other otherGroup statement group = true
  | .releaseStatement other => other = statement
  | _ => False

section Effects

variable {statement : StatementId} {group : GroupKey} {serial : Nat}

/-- Nothing is left of a state of a group that is released. -/
theorem Releases.effect_eq_none
    {call : StoreCall}
    (releases : call.Releases statement group)
    (state : Option AggregateState) :
    call.effect statement group serial state = none := by
  cases call with
  | releaseGroup other otherGroup => exact if_pos releases
  | releaseStatement other => exact if_pos releases
  | _ => cases releases

/-- Nothing brings back a state that is gone. -/
theorem foldl_effect_none
    (calls : List StoreCall) :
    calls.foldl (effect statement group serial) none = none := by
  induction calls with
  | nil =>
      rfl
  | cons call rest inductionHypothesis =>
      have gone : call.effect statement group serial none = none := by
        cases call <;> simp [effect]
      rw [List.foldl_cons, gone]
      exact inductionHypothesis

end Effects

end StoreCall

/-- The handle that an answer gives out. -/
def StoreAnswer.handle? : StoreAnswer → Option StateHandle
  | .obtained (.ok handle) => some handle
  | .found handle => handle
  | _ => none

namespace StateStore

/-- In the course of some calls, the handle was given out for the place. -/
def Issued (calls : List StoreCall) (statement : StatementId) (group : GroupKey) (key : StateKey)
    (handle : StateHandle) : Prop :=
  ∃ earlier call later, calls = earlier ++ call :: later ∧
    call.AsksFor statement group key ∧
    ((empty.performAll earlier).perform call).2.handle? = some handle

section Asking

variable {store : StateStore} {statement : StatementId} {group : GroupKey} {key : StateKey}
  {handle : StateHandle}

/-- A handle that is given out names the state at the place. -/
theorem Sound.lookup_perform
    (sound : store.Sound)
    {call : StoreCall}
    (asks : call.AsksFor statement group key)
    (given : (store.perform call).2.handle? = some handle) :
    (store.perform call).1.lookup statement group key = some handle := by
  cases call with
  | lookup asked askedGroup askedKey =>
      obtain ⟨rfl, rfl, rfl⟩ := asks
      exact given
  | obtain asked askedGroup handler occasion =>
      obtain ⟨rfl, rfl, rfl⟩ := asks
      have isOk : (store.obtain asked askedGroup handler occasion).2 = .ok handle := by
        change (StoreAnswer.obtained (store.obtain asked askedGroup handler occasion).2).handle? =
          _ at given
        rcases outcome : (store.obtain asked askedGroup handler occasion).2 with error | found
        · rw [outcome] at given
          cases given
        · rw [outcome] at given
          cases given
          rfl
      exact sound.lookup_obtain isOk
  | _ => cases asks

end Asking

section Issued

variable {calls : List StoreCall} {statement other : StatementId} {group otherGroup : GroupKey}
  {key otherKey : StateKey} {handle otherHandle : StateHandle}

/-- What was given out in the course of some calls was so also in the course of more. -/
theorem Issued.append
    (issued : Issued calls statement group key handle)
    (more : List StoreCall) :
    Issued (calls ++ more) statement group key handle := by
  obtain ⟨earlier, call, later, rfl, asks, given⟩ := issued
  exact ⟨earlier, call, later ++ more, by simp, asks, given⟩

/-- Some calls up to the one that gave out the handle. -/
theorem Issued.at_last
    (issued : Issued calls statement group key handle) :
    ∃ first, first <+: calls ∧ Issued first statement group key handle ∧
      (empty.performAll first).lookup statement group key = some handle := by
  obtain ⟨earlier, call, later, rfl, asks, given⟩ := issued
  refine ⟨earlier ++ [call], ⟨later, by simp⟩, ⟨earlier, call, [], rfl, asks, given⟩, ?_⟩
  rw [performAll_append]
  exact (Sound.empty.performAll earlier).lookup_perform asks given

/-- A handle that was given out is served by the store: at its place, or gone for good. -/
theorem Issued.serves
    (issued : Issued calls statement group key handle) :
    (empty.performAll calls).Serves statement group key handle.serial
      ((empty.performAll calls).get? handle) := by
  obtain ⟨first, ⟨later, rfl⟩, _, atPlace⟩ := issued.at_last
  have sound : (empty.performAll first).Sound := Sound.empty.performAll first
  obtain ⟨⟨serial, state⟩, found, rfl⟩ := Option.map_eq_some_iff.mp atPlace
  have serves : (empty.performAll first).Serves statement group key serial (some state) := found
  have servesLater := serves.performAll sound later
  rw [performAll_append]
  rwa [servesLater.get? (sound.performAll later) rfl]

/-- The state that is found at a place later has the number of no handle of another place. -/
theorem Issued.place_eq
    (issued : Issued calls statement group key handle)
    (atPlace : (empty.performAll calls).lookup other otherGroup otherKey = some otherHandle)
    (same : handle.serial = otherHandle.serial) :
    StatePlace.of statement group key = .of other otherGroup otherKey := by
  have sound : (empty.performAll calls).Sound := Sound.empty.performAll calls
  have serves := issued.serves
  obtain ⟨cell, found, rfl⟩ := Option.map_eq_some_iff.mp atPlace
  cases reads : (empty.performAll calls).get? handle with
  | none =>
      rw [reads] at serves
      exact absurd same.symm (serves.2 found)
  | some state =>
      rw [reads] at serves
      obtain ⟨rfl, inGroup, rfl⟩ := sound.unique serves found same
      exact StatePlace.of_eq_iff.mpr (by simp [sameGroup, inGroup])

/-- Handles of one state were given out for one place. -/
theorem Issued.same_place
    (issued : Issued calls statement group key handle)
    (issuedToo : Issued calls other otherGroup otherKey otherHandle)
    (same : handle.serial = otherHandle.serial) :
    StatePlace.of statement group key = .of other otherGroup otherKey := by
  obtain ⟨first, isFirst, issuedFirst, atFirst⟩ := issued.at_last
  obtain ⟨second, isSecond, issuedSecond, atSecond⟩ := issuedToo.at_last
  rcases List.prefix_or_prefix_of_prefix isFirst isSecond with ⟨more, rfl⟩ | ⟨more, rfl⟩
  · exact (issuedFirst.append more).place_eq atSecond same
  · exact ((issuedSecond.append more).place_eq atFirst same.symm).symm

end Issued

/--
The store is a keyed store with exact lifetimes of handles.  It answers all calls as the map of
instances does.  What a handle reads after it was given out is what the later calls make of its state
one after another; calls through handles of other places make nothing of it, because handles of one
state were given out for one place only.  From the release of its group or statement on, a handle is
dead for ever: it reads nothing, and updates through it change nothing.
-/
theorem refines_map
    (calls : List StoreCall) :
    empty.trace calls = StateMap.empty.trace calls ∧
      (∀ earlier later statement group key handle,
        calls = earlier ++ later →
          Issued earlier statement group key handle →
            (empty.performAll calls).get? handle =
              later.foldl (StoreCall.effect statement group handle.serial)
                ((empty.performAll earlier).get? handle)) ∧
      (∀ statement group key handle other otherGroup otherKey otherHandle,
        Issued calls statement group key handle →
          Issued calls other otherGroup otherKey otherHandle →
            handle.serial = otherHandle.serial →
              StatePlace.of statement group key = .of other otherGroup otherKey) ∧
      (∀ earlier release later statement group key handle,
        calls = earlier ++ release :: later →
          Issued earlier statement group key handle →
            release.Releases statement group →
              (∀ handler, (empty.performAll calls).read? handle handler = none) ∧
              (∀ row occasion,
                (empty.performAll calls).enter handle row occasion =
                  (empty.performAll calls, none)) ∧
              ∀ row occasion,
                (empty.performAll calls).leave handle row occasion =
                  (empty.performAll calls, none)) := by
  have reads : ∀ {earlier later statement group key handle},
      Issued earlier statement group key handle →
        (empty.performAll (earlier ++ later)).get? handle =
          later.foldl (StoreCall.effect statement group handle.serial)
            ((empty.performAll earlier).get? handle) := by
    intro earlier later statement group key handle issued
    have sound : (empty.performAll earlier).Sound := Sound.empty.performAll earlier
    rw [performAll_append]
    exact (issued.serves.performAll sound later).get? (sound.performAll later) rfl
  refine ⟨Shows.empty.trace calls, ?_, ?_, ?_⟩
  · rintro earlier later statement group key handle rfl issued
    exact reads issued
  · intro statement group key handle other otherGroup otherKey otherHandle issued issuedToo same
    exact issued.same_place issuedToo same
  · rintro earlier release later statement group key handle rfl issued releases
    have dead : (empty.performAll (earlier ++ release :: later)).get? handle = none := by
      rw [reads issued, List.foldl_cons, releases.effect_eq_none, StoreCall.foldl_effect_none]
    refine ⟨fun handler => ?_, fun row occasion => ?_, fun row occasion => ?_⟩
    · rw [read?, dead]
      rfl
    · simp only [enter, update, dead]
    · simp only [leave, update, dead]

/-- A handle of which the group was released is dead although its place is filled again. -/
theorem refines_map_refilled :
    let count := AggregateKind.count.handler ⟨"count", [], true, false, 0⟩ none .int
    let earlier : List StoreCall :=
      [.obtain 1 .ungrouped count [], .enter ⟨count.key, 0⟩ [] []]
    let release : StoreCall := .releaseGroup 1 .ungrouped
    let later : List StoreCall := [.obtain 1 .ungrouped count []]
    Issued earlier 1 .ungrouped count.key ⟨count.key, 0⟩ ∧
      release.Releases 1 .ungrouped ∧
      (empty.performAll (earlier ++ release :: later)).read? ⟨count.key, 0⟩ count = none := by
  intro count earlier release later
  have issued : Issued earlier 1 .ungrouped count.key ⟨count.key, 0⟩ :=
    ⟨[], _, _, rfl, ⟨rfl, rfl, rfl⟩, rfl⟩
  have releases : release.Releases 1 .ungrouped := by
    rw [StoreCall.Releases]
    decide +kernel
  refine ⟨issued, releases, ?_⟩
  exact ((refines_map (earlier ++ release :: later)).2.2.2 earlier release later _ _ _ _ rfl issued
    releases).1 count

end StateStore

end EventQuery
