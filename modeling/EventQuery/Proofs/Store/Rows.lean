import EventQuery.Proofs.Store.Lookups

namespace EventQuery

/-!
# Rows of states

A trace of a store tells for each state which rows have entered it and which were asked to leave, by
the number of the state, in the order of the calls.  A row that makes a fault has not entered.
-/

namespace StoreTrace

/-- The row that enters a state with a call. -/
def entering (serial : Nat) : StoreCall × StoreAnswer → Option Row
  | (.enter handle row _, .updated none) => if handle.serial = serial then some row else none
  | _ => none

/-- The row that leaves a state with a call. -/
def leaving (serial : Nat) : StoreCall × StoreAnswer → Option Row
  | (.leave handle row _, _) => if handle.serial = serial then some row else none
  | _ => none

/-- The rows that have entered a state, in order. -/
def entered (trace : StoreTrace) (serial : Nat) : List Row := trace.filterMap (entering serial)

/-- The rows that have left a state, in order. -/
def left (trace : StoreTrace) (serial : Nat) : List Row := trace.filterMap (leaving serial)

/-- At every moment, the rows that have left a state are the first ones that have entered it. -/
def FirstInFirstOut (trace : StoreTrace) : Prop :=
  ∀ first : StoreTrace, first <+: trace → ∀ serial, first.left serial <+: first.entered serial

section Parts

variable {first second : StoreTrace} {serial : Nat}

theorem entered_append :
    entered (first ++ second) serial = first.entered serial ++ second.entered serial :=
  List.filterMap_append

theorem left_append :
    left (first ++ second) serial = first.left serial ++ second.left serial :=
  List.filterMap_append

/-- The rows that have entered at a moment are the first ones that enter later. -/
theorem entered_mono
    (before : first <+: second) :
    first.entered serial <+: second.entered serial := by
  obtain ⟨rest, rfl⟩ := before
  rw [entered_append]
  exact List.prefix_append _ _

theorem left_mono
    (before : first <+: second) :
    first.left serial <+: second.left serial := by
  obtain ⟨rest, rfl⟩ := before
  rw [left_append]
  exact List.prefix_append _ _

/--
Rows leave in the order in which they entered when this holds at the end of further calls, among
which no row enters after one has left.
-/
theorem FirstInFirstOut.append
    {entries exits : StoreTrace}
    (trace : first.FirstInFirstOut)
    (noExit : ∀ serial, entries.left serial = [])
    (noEntry : ∀ serial, exits.entered serial = [])
    (atEnd : ∀ serial,
      left (first ++ (entries ++ exits)) serial <+: entered (first ++ (entries ++ exits)) serial) :
    FirstInFirstOut (first ++ (entries ++ exits)) := by
  intro part isPart serial
  rcases List.prefix_or_prefix_of_prefix isPart (List.prefix_append first _) with
    early | ⟨later, rfl⟩
  · exact trace part early serial
  · rw [List.prefix_append_right_inj] at isPart
    rcases List.prefix_or_prefix_of_prefix isPart (List.prefix_append entries _) with
      entering | ⟨leaving, rfl⟩
    · -- no row has left since the first calls
      have none : left later serial = [] :=
        List.prefix_nil.mp (noExit serial ▸ left_mono entering)
      rw [left_append, none, List.append_nil, entered_append]
      exact (trace first (List.prefix_refl first) serial).trans (List.prefix_append _ _)
    · -- all rows have entered that enter until the end
      rw [List.prefix_append_right_inj] at isPart
      have none : entered leaving serial = [] :=
        List.prefix_nil.mp (noEntry serial ▸ entered_mono isPart)
      have all : entered (first ++ (entries ++ leaving)) serial =
          entered (first ++ (entries ++ exits)) serial := by
        rw [entered_append, entered_append, entered_append, entered_append, none, noEntry]
      rw [all]
      refine (left_mono ?_).trans (atEnd serial)
      rw [List.prefix_append_right_inj, List.prefix_append_right_inj]
      exact isPart

end Parts

end StoreTrace

namespace StateStore

variable {store : StateStore} {calls : List StoreCall} {serial : Nat}

/-- A call that does not use a state makes no row enter or leave it. -/
theorem not_entering_or_leaving
    {call : StoreCall}
    (others : ∀ handle, call.Uses handle → handle.serial ≠ serial)
    (answer : StoreAnswer) :
    StoreTrace.entering serial (call, answer) = none ∧
      StoreTrace.leaving serial (call, answer) = none := by
  cases call with
  | enter handle row occasion =>
      have different := others handle rfl
      cases answer with
      | updated fault => cases fault <;> simp [StoreTrace.entering, StoreTrace.leaving, different]
      | _ => exact ⟨rfl, rfl⟩
  | leave handle row occasion =>
      exact ⟨rfl, if_neg (others handle rfl)⟩
  | _ => exact ⟨rfl, rfl⟩

/-- Calls that do not use a state make no row enter or leave it. -/
theorem trace_untouched
    (others : ∀ call ∈ calls, ∀ handle, call.Uses handle → handle.serial ≠ serial) :
    (store.trace calls).entered serial = [] ∧ (store.trace calls).left serial = [] := by
  induction calls generalizing store with
  | nil =>
      exact ⟨rfl, rfl⟩
  | cons call rest inductionHypothesis =>
      obtain ⟨notEntering, notLeaving⟩ :=
        not_entering_or_leaving (others call List.mem_cons_self) (store.perform call).2
      rw [trace, StoreTrace.entered, StoreTrace.left, List.filterMap_cons_none notEntering,
        List.filterMap_cons_none notLeaving]
      exact inductionHypothesis fun call member => others call (List.mem_cons_of_mem _ member)

end StateStore

/-- Calls that use no state leave the rows of all states in order. -/
theorem StoreTrace.FirstInFirstOut.of_unused
    {trace : StoreTrace}
    {store : StateStore}
    {calls : List StoreCall}
    (ordered : trace.FirstInFirstOut)
    (unused : ∀ call ∈ calls, ∀ handle, ¬ call.Uses handle) :
    (trace ++ store.trace calls).FirstInFirstOut := by
  have untouched : ∀ serial, (store.trace calls).entered serial = [] ∧
      (store.trace calls).left serial = [] := fun serial =>
    StateStore.trace_untouched fun call member handle uses =>
      absurd uses (unused call member handle)
  have noRow : ∀ serial, StoreTrace.entered [] serial = [] := fun _ => rfl
  rw [← List.append_nil (store.trace calls)]
  refine ordered.append (fun serial => (untouched serial).2) noRow fun serial => ?_
  rw [List.append_nil, StoreTrace.left_append, StoreTrace.entered_append, (untouched serial).1,
    (untouched serial).2, List.append_nil, List.append_nil]
  exact ordered trace (List.prefix_refl trace) serial

end EventQuery
