import EventQuery.Proofs.Statement.Distinct
import EventQuery.Proofs.Store.Rows

namespace EventQuery

namespace Statement

/-!
# Windows in step with states

The window of a statement and the states of its groups are changed together.  A state holds, in their
order, the rows of its group in the window that came as far as to this state before a fault: a row
that is added enters a first part of the states of its group, and a row that is pushed out leaves the
same part.
-/

/-- The rows of a group that came as far as to the state at a place among the different ones. -/
def rowsAt (rows : List WindowRow) (key : GroupKey) (place : Nat) : List Row :=
  (rows.filter fun held => (key == held.group) && decide (place < held.entered)).map WindowRow.row

/-- The window of a statement is what its states hold after the calls of a trace. -/
structure InStep (statement : Statement) (trace : StoreTrace) : Prop where
  placed :
    ∀ held ∈ statement.window, ∃ group ∈ statement.groups, (group.key == held.group) = true
  held :
    statement.plan.window.isSome = true →
      ∀ group ∈ statement.groups, ∀ place handle,
        (statement.distinctHandles group.handles)[place]? = some handle →
          trace.entered handle.serial =
            trace.left handle.serial ++ rowsAt statement.window group.key place

section Tracing

variable (statement : Statement) (row : Row) (occasion : Occasion) (store : StateStore)
  (serial : Nat)

theorem le_enterAll
    (entered : Nat)
    (handles : List StateHandle) :
    entered ≤ (enterAll row occasion store entered handles).2.1 := by
  induction handles generalizing store entered with
  | nil =>
      exact Nat.le_refl _
  | cons handle rest inductionHypothesis =>
      rw [enterAll]
      split
      next => exact Nat.le_of_succ_le (inductionHypothesis _ _)
      next => exact Nat.le_refl _

/-- A row enters the states up to a fault, and none is left. -/
theorem trace_enterCalls
    (entered : Nat)
    (handles : List StateHandle) :
    (store.trace (enterCalls row occasion store entered handles)).entered serial =
        ((handles.take ((enterAll row occasion store entered handles).2.1 - entered)).filter
          fun handle => handle.serial == serial).map (fun _ => row) ∧
      (store.trace (enterCalls row occasion store entered handles)).left serial = [] := by
  induction handles generalizing store entered with
  | nil =>
      simp [enterCalls, StateStore.trace, StoreTrace.entered, StoreTrace.left]
  | cons handle rest inductionHypothesis =>
      rcases entering : store.enter handle row (entered :: occasion) with ⟨changed, none | fault⟩
      · obtain ⟨enters, leaves⟩ := inductionHypothesis changed (entered + 1)
        have further := le_enterAll row occasion changed (entered + 1) rest
        have traced : store.trace (enterCalls row occasion store entered (handle :: rest)) =
            (.enter handle row (entered :: occasion), .updated none) ::
              changed.trace (enterCalls row occasion changed (entered + 1) rest) := by
          simp only [enterCalls, StateStore.trace, StateStore.perform, entering]
        have counted : (enterAll row occasion store entered (handle :: rest)).2.1 - entered =
            (enterAll row occasion changed (entered + 1) rest).2.1 - (entered + 1) + 1 := by
          simp only [enterAll, entering]
          omega
        rw [traced, counted, List.take_succ_cons]
        refine ⟨?_, (List.filterMap_cons_none rfl).trans leaves⟩
        by_cases same : handle.serial = serial
        · rw [List.filter_cons_of_pos (by simp [same]), List.map_cons, ← enters]
          exact List.filterMap_cons_some (if_pos same)
        · rw [List.filter_cons_of_neg (by simp [same]), ← enters]
          exact List.filterMap_cons_none (if_neg same)
      · have traced : store.trace (enterCalls row occasion store entered (handle :: rest)) =
            [(.enter handle row (entered :: occasion), .updated (some fault))] := by
          simp only [enterCalls, StateStore.trace, StateStore.perform, entering]
        have counted : (enterAll row occasion store entered (handle :: rest)).2.1 = entered := by
          simp only [enterAll, entering]
        rw [traced, counted, Nat.sub_self]
        exact ⟨rfl, rfl⟩

/-- A row leaves states, and none is entered. -/
theorem trace_leaveCalls
    (left : Nat)
    (handles : List StateHandle) :
    (store.trace (leaveCalls row occasion left handles)).entered serial = [] ∧
      (store.trace (leaveCalls row occasion left handles)).left serial =
        (handles.filter fun handle => handle.serial == serial).map fun _ => row := by
  induction handles generalizing store left with
  | nil =>
      exact ⟨rfl, rfl⟩
  | cons handle rest inductionHypothesis =>
      obtain ⟨enters, leaves⟩ :=
        inductionHypothesis (store.leave handle row (left :: occasion)).1 (left + 1)
      refine ⟨(List.filterMap_cons_none rfl).trans enters, ?_⟩
      by_cases same : handle.serial = serial
      · rw [List.filter_cons_of_pos (by simp [same]), List.map_cons, ← leaves]
        exact List.filterMap_cons_some (if_pos same)
      · rw [List.filter_cons_of_neg (by simp [same]), ← leaves]
        exact List.filterMap_cons_none (if_neg same)

/-- The rows that leave a state when rows are pushed out. -/
def exits (statement : Statement) (rows : List WindowRow) (serial : Nat) : List Row :=
  rows.flatMap fun expired =>
    ((statement.enteredHandles expired).filter fun handle => handle.serial == serial).map
      fun _ => expired.row

theorem trace_expireCalls
    (position : Nat)
    (rows : List WindowRow) :
    (store.trace (statement.expireCalls occasion position rows)).entered serial = [] ∧
      (store.trace (statement.expireCalls occasion position rows)).left serial =
        statement.exits rows serial := by
  induction rows generalizing store position with
  | nil =>
      exact ⟨rfl, rfl⟩
  | cons expired rest inductionHypothesis =>
      rw [expireCalls, StateStore.trace_append, StoreTrace.entered_append, StoreTrace.left_append,
        (trace_leaveCalls _ _ _ _ 0 _).1, (trace_leaveCalls _ _ _ _ 0 _).2,
        (inductionHypothesis _ _).1, (inductionHypothesis _ _).2]
      exact ⟨rfl, rfl⟩

theorem trace_readCalls
    (held : StateStore)
    (slots : List (AggregateSlot × StateHandle)) :
    (held.trace (readCalls store slots)).entered serial = [] ∧
      (held.trace (readCalls store slots)).left serial = [] := by
  induction slots with
  | nil =>
      exact ⟨rfl, rfl⟩
  | cons slot rest inductionHypothesis =>
      rw [readCalls, StateStore.trace]
      split
      next => exact ⟨rfl, rfl⟩
      next => exact inductionHypothesis

/--
Aggregating a row makes it enter the first different states of its group; then the rows that are
pushed out leave, and nothing enters any more.
-/
theorem trace_aggregateCalls
    (key : GroupKey)
    (handles : List StateHandle) :
    ∃ entries last : StoreTrace,
      store.trace (statement.aggregateCalls store key handles row occasion) = entries ++ last ∧
        (∀ serial, entries.entered serial =
          (((statement.distinctHandles handles).take
            (statement.enteredCount store handles row occasion)).filter fun handle =>
              handle.serial == serial).map fun _ => row) ∧
        (∀ serial, entries.left serial = []) ∧
        (∀ serial, last.entered serial = []) ∧
        ∀ serial, last.left serial =
          statement.exits (statement.pushedOut
            ⟨row, key, statement.enteredCount store handles row occasion⟩) serial := by
  rcases entering : enterAll row (2 :: occasion) store 0 (statement.distinctHandles handles) with
    ⟨grown, entered, fault⟩
  simp only [aggregateCalls, enteredCount, entering, List.append_assoc, StateStore.trace_append]
  refine ⟨_, _, rfl, fun serial => ?_, fun serial => ?_, fun serial => ?_, fun serial => ?_⟩
  · rw [(trace_enterCalls _ _ _ _ 0 _).1, entering]
    rfl
  · exact (trace_enterCalls _ _ _ _ 0 _).2
  · rw [StoreTrace.entered_append, (trace_expireCalls _ _ _ _ 0 _).1]
    split
    next => rfl
    next => exact (trace_readCalls _ _ _ _).1
  · rw [StoreTrace.left_append, (trace_expireCalls _ _ _ _ 0 _).2]
    split
    next => exact List.append_nil _
    next => rw [(trace_readCalls _ _ _ _).2, List.append_nil]

end Tracing

section Stepping

variable {statement : Statement} {store : StateStore} {trace : StoreTrace}

theorem rowsAt_append
    (first second : List WindowRow)
    (key : GroupKey)
    (place : Nat) :
    rowsAt (first ++ second) key place = rowsAt first key place ++ rowsAt second key place := by
  rw [rowsAt, List.filter_append, List.map_append]
  rfl

/-- A row has entered a state when it is of its group and came as far as to it. -/
theorem Tied.entered_eq
    (tied : Tied statement store)
    (sound : store.Sound)
    {group : OpenGroup}
    {place : Nat}
    {handle : StateHandle}
    (member : group ∈ statement.groups)
    (isHandle : (statement.distinctHandles group.handles)[place]? = some handle)
    (held : WindowRow) :
    (((statement.enteredHandles held).filter fun other => other.serial == handle.serial).map
        fun _ => held.row) =
      rowsAt [held] group.key place := by
  rw [enteredHandles]
  cases same : group.key == held.group with
  | true =>
      rw [tied.group?_of_key member same]
      simp only [tied.filter_own sound member isHandle]
      by_cases further : place < held.entered <;> simp [rowsAt, same, further]
  | false =>
      have none : rowsAt [held] group.key place = [] := by
        simp [rowsAt, same]
      rw [none]
      rcases isOpen : statement.group? held.group with _ | other
      · rfl
      · obtain ⟨otherMember, otherSame⟩ := mem_of_group? isOpen
        have different : other ≠ group := by
          rintro rfl
          cases same.symm.trans otherSame
        simp only [tied.filter_other sound member isHandle otherMember different]
        rfl

/-- The rows that leave a state are those of its group that came as far as to it. -/
theorem Tied.exits_eq
    (tied : Tied statement store)
    (sound : store.Sound)
    {group : OpenGroup}
    {place : Nat}
    {handle : StateHandle}
    (member : group ∈ statement.groups)
    (isHandle : (statement.distinctHandles group.handles)[place]? = some handle)
    (rows : List WindowRow) :
    statement.exits rows handle.serial = rowsAt rows group.key place := by
  induction rows with
  | nil =>
      rfl
  | cons expired rest inductionHypothesis =>
      rw [exits, List.flatMap_cons, tied.entered_eq sound member isHandle]
      change _ ++ statement.exits rest handle.serial = rowsAt ([expired] ++ rest) group.key place
      rw [rowsAt_append, inductionHypothesis]

/-- After a row has been added, the window has rows of before and this one. -/
theorem mem_of_mem_windowWith
    {added held : WindowRow}
    (member : held ∈ statement.windowWith added) :
    held ∈ statement.window ∨ held = added := by
  rw [windowWith] at member
  split at member
  next => exact .inl member
  next => exact (List.mem_append.mp (List.mem_of_mem_drop member)).imp_right List.mem_singleton.mp

/-- The window with a row more is what is pushed out and what is left. -/
theorem pushedOut_append_windowWith
    (windowed : statement.plan.window.isSome = true)
    (added : WindowRow) :
    statement.pushedOut added ++ statement.windowWith added = statement.window ++ [added] := by
  obtain ⟨size, isSize⟩ := Option.isSome_iff_exists.mp windowed
  simp only [pushedOut, windowWith, isSize]
  exact List.take_append_drop _ _

theorem InStep.aggregate
    {key : GroupKey}
    {opened : OpenGroup}
    (inStep : InStep statement trace)
    (tied : Tied statement store)
    (sound : store.Sound)
    (row : Row)
    (occasion : Occasion)
    (isOpen : statement.group? key = some opened) :
    InStep (statement.aggregateRow store key opened.handles row occasion).1
      (trace ++ store.trace
        (statement.aggregateCalls store key opened.handles row occasion)) := by
  obtain ⟨openedMember, openedKey⟩ := mem_of_group? isOpen
  let added : WindowRow :=
    ⟨row, key, statement.enteredCount store opened.handles row occasion⟩
  constructor
  · intro held member
    rw [window_aggregateRow] at member
    have placed : ∃ group ∈ statement.groups, (group.key == held.group) = true := by
      rcases mem_of_mem_windowWith member with isOld | rfl
      · exact inStep.placed held isOld
      · exact ⟨opened, openedMember, openedKey⟩
    obtain ⟨group, isGroup, same⟩ := placed
    refine ⟨_, mem_groups_aggregateRow.mpr ⟨group, isGroup, rfl⟩, ?_⟩
    split <;> exact same
  · rw [plan_aggregateRow]
    intro windowed changed member place handle isHandle
    obtain ⟨group, isGroup, isChanged⟩ := mem_groups_aggregateRow.mp member
    have unchanged : changed.key = group.key ∧ changed.handles = group.handles := by
      rw [isChanged]
      split <;> exact ⟨rfl, rfl⟩
    rw [distinctHandles, plan_aggregateRow, unchanged.2] at isHandle
    rw [window_aggregateRow, unchanged.1]
    obtain ⟨entries, last, traced, enters, noExit, noEntry, leaves⟩ :=
      trace_aggregateCalls statement row occasion store key opened.handles
    have entering : entries.entered handle.serial = rowsAt [added] group.key place := by
      rw [enters, ← tied.entered_eq sound isGroup isHandle added, enteredHandles, isOpen]
    -- what enters is the row that is added, and what leaves is pushed out
    rw [traced, StoreTrace.entered_append, StoreTrace.entered_append, StoreTrace.left_append,
      StoreTrace.left_append, noEntry, noExit, leaves, tied.exits_eq sound isGroup isHandle,
      entering, inStep.held windowed group isGroup place handle isHandle]
    simp only [List.append_nil, List.nil_append, List.append_assoc]
    rw [← rowsAt_append, ← rowsAt_append, pushedOut_append_windowWith windowed]

theorem InStep.of_same
    {next : Statement}
    (inStep : InStep statement trace)
    (same : SameHolding next statement) :
    InStep next trace where
  placed := by
    rw [same.window, same.groups]
    exact inStep.placed
  held := by
    intro windowed group member place handle isHandle
    rw [same.groups] at member
    rw [distinctHandles, same.plan] at isHandle
    rw [same.window]
    exact inStep.held (same.plan ▸ windowed) group member place handle isHandle

/-- A statement that holds no groups and no rows is in step with everything. -/
theorem InStep.of_nothing
    (groups : statement.groups = [])
    (window : statement.window = []) :
    InStep statement trace where
  placed := by
    rw [window]
    exact fun _ member => nomatch member
  held := by
    rw [groups]
    exact fun _ _ member => nomatch member

/-- Calls that use none of its states leave a statement in step. -/
theorem InStep.of_untouched
    {calls : List StoreCall}
    (inStep : InStep statement trace)
    (others : ∀ call ∈ calls, ∀ handle, call.Uses handle →
      ∀ group ∈ statement.groups, ∀ own ∈ group.handles, handle.serial ≠ own.serial) :
    InStep statement (trace ++ store.trace calls) where
  placed := inStep.placed
  held := by
    intro windowed group member place handle isHandle
    have isOwn : handle ∈ group.handles :=
      mem_of_mem_distinctHandles (List.mem_of_getElem? isHandle)
    obtain ⟨noEntry, noExit⟩ : (store.trace calls).entered handle.serial = [] ∧
        (store.trace calls).left handle.serial = [] :=
      StateStore.trace_untouched fun call isCall used uses =>
        others call isCall used uses group member handle isOwn
    rw [StoreTrace.entered_append, StoreTrace.left_append, noEntry, noExit, List.append_nil,
      List.append_nil]
    exact inStep.held windowed group member place handle isHandle

theorem InStep.open
    {next : Statement}
    {obtained : StateStore}
    {key : GroupKey}
    {occasion : Occasion}
    {handles : List StateHandle}
    (inStep : InStep statement trace)
    (tied : Tied statement store)
    (sound : store.Sound)
    (fresh : ∀ serial, store.next ≤ serial → trace.entered serial = [] ∧ trace.left serial = [])
    (running : statement.stopped = false)
    (closed : statement.group? key = none)
    (outcome : statement.openGroup store key occasion = (next, obtained, .ok handles)) :
    InStep next trace := by
  have tiedAfter := tied.open sound running closed outcome
  obtain ⟨rfl, obtaining⟩ := eq_of_openGroup_ok closed outcome
  have grows := grows_obtainAll sound statement.id key occasion 0 statement.plan.aggregates
  rw [obtaining] at grows
  have notOpen : ∀ group ∈ statement.groups, (group.key == key) = false := fun group member =>
    Bool.eq_false_iff.mpr (List.find?_eq_none.mp closed group member)
  constructor
  · intro held member
    obtain ⟨group, isGroup, same⟩ := inStep.placed held member
    exact ⟨group, List.mem_append_left _ isGroup, same⟩
  · intro windowed group member place handle isHandle
    rcases List.mem_append.mp member with isOld | isNew
    · exact inStep.held windowed group isOld place handle isHandle
    · obtain ⟨stateKey, _, found⟩ := tiedAfter.lookup_of_distinct member isHandle
      obtain rfl := List.mem_singleton.mp isNew
      have new : store.next ≤ handle.serial := by
        rcases grows.added found with before | ⟨_, _, _, new⟩
        · obtain ⟨⟨other, isOther, same⟩, _⟩ := tied.known before
          cases same.symm.trans (notOpen other isOther)
        · exact new
      have noRow : rowsAt statement.window key place = [] := by
        rw [rowsAt, List.map_eq_nil_iff, List.filter_eq_nil_iff]
        intro held isHeld inGroup
        obtain ⟨other, isOther, same⟩ := inStep.placed held isHeld
        obtain ⟨sameKey, _⟩ := Bool.and_eq_true_iff.mp inGroup
        cases (BEq.trans same (BEq.symm sameKey)).symm.trans (notOpen other isOther)
      change _ = _ ++ rowsAt statement.window key place
      rw [noRow, (fresh _ new).1, (fresh _ new).2]
      rfl

theorem InStep.drop
    (inStep : InStep statement trace)
    (key : GroupKey) :
    InStep (statement.dropGroup store key).1 trace := by
  have stays : ∀ {other : GroupKey}, (!other.same key) = true ↔ (other == key) = false := by
    intro other
    rw [Bool.not_eq_true']
    rfl
  constructor
  · intro held member
    obtain ⟨isHeld, kept⟩ := List.mem_filter.mp member
    obtain ⟨group, isGroup, same⟩ := inStep.placed held isHeld
    refine ⟨group, List.mem_filter.mpr ⟨isGroup, stays.mpr ?_⟩, same⟩
    rw [BEq.congr_left same]
    exact stays.mp kept
  · intro windowed group member place handle isHandle
    obtain ⟨isGroup, kept⟩ := List.mem_filter.mp member
    have sameRows : rowsAt (statement.dropGroup store key).1.window group.key place =
        rowsAt statement.window group.key place := by
      rw [rowsAt, dropGroup, List.filter_filter, rowsAt]
      refine congrArg _ (List.filter_congr fun held _ => ?_)
      cases same : group.key == held.group with
      | false => rfl
      | true =>
          have keptToo : (!held.group.same key) = true :=
            stays.mpr (BEq.congr_left same ▸ stays.mp kept)
          rw [keptToo, Bool.and_true]
    rw [sameRows]
    exact inStep.held windowed group isGroup place handle isHandle

/-- Every move leaves its statement in step. -/
theorem InStep.move
    {next : Statement}
    {left : StateStore}
    {calls : List StoreCall}
    (inStep : InStep statement trace)
    (tied : Tied statement store)
    (sound : store.Sound)
    (fresh : ∀ serial, store.next ≤ serial → trace.entered serial = [] ∧ trace.left serial = [])
    (move : Move statement store calls next left) :
    InStep next (trace ++ store.trace calls) := by
  cases move with
  | quiet same =>
      rw [StateStore.trace, List.append_nil]
      exact inStep.of_same same
  | opened running closed outcome =>
      refine (inStep.open tied sound fresh running closed outcome).of_untouched ?_
      intro call member handle uses
      obtain ⟨handler, moment, rfl⟩ := obtain_of_mem_openCalls member
      cases uses
  | aggregated row occasion running isOpen => exact inStep.aggregate tied sound row occasion isOpen
  | dropped key running =>
      refine (inStep.drop key).of_untouched ?_
      intro call member handle uses
      cases List.mem_singleton.mp member
      cases uses
  | stopped running =>
      rw [stop_of_running running]
      exact .of_nothing rfl rfl
  | failed running closed outcome same =>
      have unchanged := (eq_of_openGroup_error outcome).1
      rw [stop_of_running (by rw [same.stopped, unchanged, running])]
      exact .of_nothing rfl rfl
  | cleared ended =>
      obtain ⟨groups, window⟩ := tied.ended ended
      exact .of_nothing groups window

/-- Aggregating a row leaves the rows of all states in order: only rows of the window leave. -/
theorem InStep.ordered_aggregate
    {key : GroupKey}
    {opened : OpenGroup}
    (inStep : InStep statement trace)
    (ordered : trace.FirstInFirstOut)
    (tied : Tied statement store)
    (sound : store.Sound)
    (row : Row)
    (occasion : Occasion)
    (isOpen : statement.group? key = some opened) :
    StoreTrace.FirstInFirstOut
      (trace ++ store.trace (statement.aggregateCalls store key opened.handles row occasion)) := by
  have after := inStep.aggregate tied sound row occasion isOpen
  obtain ⟨entries, last, traced, _, noExit, noEntry, leaves⟩ :=
    trace_aggregateCalls statement row occasion store key opened.handles
  rw [traced] at after ⊢
  refine ordered.append noExit noEntry fun serial => ?_
  rcases leaving : last.left serial with _ | ⟨first, rest⟩
  · rw [StoreTrace.left_append, StoreTrace.left_append, noExit, leaving, List.append_nil,
      List.append_nil, StoreTrace.entered_append]
    exact (ordered trace (List.prefix_refl trace) serial).trans (List.prefix_append _ _)
  · have isExit : first ∈ statement.exits (statement.pushedOut
        ⟨row, key, statement.enteredCount store opened.handles row occasion⟩) serial := by
      rw [← leaves, leaving]
      exact List.mem_cons_self
    obtain ⟨expired, isPushed, isLeft⟩ := List.mem_flatMap.mp isExit
    obtain ⟨handle, isHandle, _⟩ := List.mem_map.mp isLeft
    obtain ⟨isEntered, same⟩ := List.mem_filter.mp isHandle
    have windowed : statement.plan.window.isSome = true := by
      rw [pushedOut] at isPushed
      split at isPushed
      next => cases isPushed
      next size isSize => rw [isSize, Option.isSome_some]
    rw [enteredHandles] at isEntered
    split at isEntered
    next => cases isEntered
    next group isGroup =>
        obtain ⟨place, atPlace⟩ := List.mem_iff_getElem?.mp (List.mem_of_mem_take isEntered)
        have stillWindowed : (statement.aggregateRow store key opened.handles row
            occasion).1.plan.window.isSome = true := by
          rw [plan_aggregateRow]
          exact windowed
        have held := after.held stillWindowed _
          (mem_groups_aggregateRow.mpr ⟨group, (mem_of_group? isGroup).1, rfl⟩) place handle (by
            rw [distinctHandles, plan_aggregateRow]
            split <;> exact atPlace)
        rw [← eq_of_beq same, held]
        exact List.prefix_append _ _

/-- Every move leaves the rows of all states in order. -/
theorem InStep.ordered_move
    {next : Statement}
    {left : StateStore}
    {calls : List StoreCall}
    (inStep : InStep statement trace)
    (ordered : trace.FirstInFirstOut)
    (tied : Tied statement store)
    (sound : store.Sound)
    (move : Move statement store calls next left) :
    (trace ++ store.trace calls).FirstInFirstOut := by
  rcases move.unused_or_aggregated with unused | ⟨key, opened, row, occasion, isOpen, rfl⟩
  · exact ordered.of_unused unused
  · exact inStep.ordered_aggregate ordered tied sound row occasion isOpen

end Stepping

end Statement

end EventQuery
