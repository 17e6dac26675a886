import EventQuery.Proofs.Statement.Asking

namespace EventQuery

namespace Statement

/-!
# Moves of statements

Whatever a statement does with events and points of time is a sequence of a few kinds of moves: a
group is opened, a row of an open group is aggregated, a group is dropped, the statement is stopped.
A group that cannot be opened stops the statement, and both are one move, so that no move ends where
the states of a group that is not open are left in the store.
-/

/-- One move of a statement, with the calls that the store gets in it. -/
inductive Move : Statement → StateStore → List StoreCall → Statement → StateStore → Prop
  | quiet {statement next : Statement} {store : StateStore}
      (same : SameHolding next statement) :
      Move statement store [] next store
  | opened {statement next : Statement} {store obtained : StateStore} {key : GroupKey}
      {occasion : Occasion} {handles : List StateHandle}
      (running : statement.stopped = false)
      (closed : statement.group? key = none)
      (outcome : statement.openGroup store key occasion = (next, obtained, .ok handles)) :
      Move statement store (statement.openCalls store key occasion) next obtained
  | aggregated {statement : Statement} {store : StateStore} {key : GroupKey} {group : OpenGroup}
      (row : Row) (occasion : Occasion)
      (running : statement.stopped = false)
      (isOpen : statement.group? key = some group) :
      Move statement store (statement.aggregateCalls store key group.handles row occasion)
        (statement.aggregateRow store key group.handles row occasion).1
        (statement.aggregateRow store key group.handles row occasion).2.1
  | dropped {statement : Statement} {store : StateStore}
      (key : GroupKey)
      (running : statement.stopped = false) :
      Move statement store [.releaseGroup statement.id key] (statement.dropGroup store key).1
        (statement.dropGroup store key).2
  | stopped {statement : Statement} {store : StateStore}
      (running : statement.stopped = false) :
      Move statement store [.releaseStatement statement.id] (statement.stop store).1
        (statement.stop store).2
  | failed {statement next last : Statement} {store obtained : StateStore} {key : GroupKey}
      {occasion : Occasion} {error : ActivationError}
      (running : statement.stopped = false)
      (closed : statement.group? key = none)
      (outcome : statement.openGroup store key occasion = (next, obtained, .error error))
      (same : SameHolding last next) :
      Move statement store
        (statement.openCalls store key occasion ++ [.releaseStatement statement.id])
        (last.stop obtained).1 (last.stop obtained).2
  | cleared {statement : Statement} {store : StateStore}
      (ended : statement.stopped = true) :
      Move statement store [.releaseStatement statement.id] statement
        (store.releaseStatement statement.id).1

/-- Several moves of a statement, with the calls that the store gets in them. -/
inductive Moves (statement : Statement) (store : StateStore) :
    List StoreCall → Statement → StateStore → Prop
  | none : Moves statement store [] statement store
  | more {calls last : List StoreCall} {middle next : Statement} {held left : StateStore}
      (moves : Moves statement store calls middle held)
      (move : Move middle held last next left) :
      Moves statement store (calls ++ last) next left

namespace Moves

variable {first middle last : Statement} {store held left : StateStore}
  {calls others : List StoreCall}

theorem of_move
    (move : Move first store calls last left) :
    Moves first store calls last left :=
  .more .none move

theorem trans
    (moves : Moves first store calls middle held)
    (further : Moves middle held others last left) :
    Moves first store (calls ++ others) last left := by
  induction further with
  | none =>
      rw [List.append_nil]
      exact moves
  | more _ move inductionHypothesis =>
      rw [← List.append_assoc]
      exact .more inductionHypothesis move

end Moves

section Openings

variable {statement opened : Statement} {store obtained : StateStore} {key : GroupKey}
  {occasion : Occasion}

/-- The open group of a key is an open group with that key. -/
theorem mem_of_group?
    {group : OpenGroup}
    (isOpen : statement.group? key = some group) :
    group ∈ statement.groups ∧ (group.key == key) = true := by
  have found : (statement.groups.find? fun other => other.key.same key) = some group := isOpen
  have same := List.find?_some found
  exact ⟨List.mem_of_find?_eq_some found, same⟩

/-- An open group is handed out without a call. -/
theorem openGroup_of_open
    {group : OpenGroup}
    (isOpen : statement.group? key = some group) :
    statement.openGroup store key occasion = (statement, store, .ok group.handles) := by
  simp only [openGroup, isOpen]

/-- A group that cannot be opened leaves the statement as it was. -/
theorem eq_of_openGroup_error
    {error : ActivationError}
    (outcome : statement.openGroup store key occasion = (opened, obtained, .error error)) :
    opened = statement ∧ statement.group? key = none := by
  rcases found : statement.group? key with _ | group
  · rcases obtaining : obtainAll statement.id key occasion store 0 statement.plan.aggregates with
      ⟨last, failed | handles⟩
    · simp only [openGroup, found, obtaining, Prod.mk.injEq] at outcome
      exact ⟨outcome.1.symm, rfl⟩
    · simp [openGroup, found, obtaining] at outcome
  · rw [openGroup_of_open found] at outcome
    simp at outcome

/-- A group that is not open asks for its states, whether or not they can all be created. -/
theorem openGroup_of_closed
    (closed : statement.group? key = none) :
    (statement.openGroup store key occasion).2.1 =
      (obtainAll statement.id key occasion store 0 statement.plan.aggregates).1 := by
  rcases obtaining : obtainAll statement.id key occasion store 0 statement.plan.aggregates with
    ⟨last, error | handles⟩ <;> simp [openGroup, closed, obtaining]

/-- A group that is opened is put behind the others. -/
theorem eq_of_openGroup_ok
    {handles : List StateHandle}
    (closed : statement.group? key = none)
    (outcome : statement.openGroup store key occasion = (opened, obtained, .ok handles)) :
    opened = { statement with groups := statement.groups ++ [⟨key, handles, statement.now⟩] } ∧
      obtainAll statement.id key occasion store 0 statement.plan.aggregates =
        (obtained, .ok handles) := by
  rcases obtaining : obtainAll statement.id key occasion store 0 statement.plan.aggregates with
    ⟨last, failed | all⟩
  · simp [openGroup, closed, obtaining] at outcome
  · simp only [openGroup, closed, obtaining, Prod.mk.injEq, Except.ok.injEq] at outcome
    obtain ⟨rfl, rfl, rfl⟩ := outcome
    exact ⟨rfl, rfl⟩

/-- A group that has been opened is open. -/
theorem group?_of_openGroup
    {handles : List StateHandle}
    (outcome : statement.openGroup store key occasion = (opened, obtained, .ok handles)) :
    ∃ group, opened.group? key = some group ∧ group.handles = handles := by
  rcases found : statement.group? key with _ | group
  · obtain ⟨rfl, _⟩ := eq_of_openGroup_ok found outcome
    have absent : statement.groups.find? (fun group => group.key.same key) = none := found
    have self : key.same key = true := GroupKey.beq_iff.mpr rfl
    refine ⟨⟨key, handles, statement.now⟩, ?_, rfl⟩
    rw [group?, List.find?_append, absent]
    simp [self]
  · rw [openGroup_of_open found] at outcome
    cases outcome
    exact ⟨group, found, rfl⟩

end Openings

/-- The rows that are left in the window when a row is added. -/
def windowWith (statement : Statement) (added : WindowRow) : List WindowRow :=
  match statement.plan.window with
  | none => statement.window
  | some size =>
      (statement.window ++ [added]).drop ((statement.window ++ [added]).length - size)

/-- The number of states that a row of a group enters before a fault. -/
def enteredCount (statement : Statement) (store : StateStore) (handles : List StateHandle)
    (row : Row) (occasion : Occasion) : Nat :=
  (enterAll row (2 :: occasion) store 0 (statement.distinctHandles handles)).2.1

/-- Sliding the window changes the window of the statement. -/
theorem slideWindow_fst
    (statement : Statement)
    (store : StateStore)
    (added : WindowRow)
    (occasion : Occasion) :
    (statement.slideWindow store added occasion).1 =
      { statement with window := statement.windowWith added } := by
  rw [slideWindow, windowWith]
  cases statement.plan.window <;> rfl

/-- Aggregating a row changes the window of the statement and the time of the group. -/
theorem aggregateRow_fst
    (statement : Statement)
    (store : StateStore)
    (key : GroupKey)
    (handles : List StateHandle)
    (row : Row)
    (occasion : Occasion) :
    (statement.aggregateRow store key handles row occasion).1 =
      { statement with
          window := statement.windowWith
            ⟨row, key, statement.enteredCount store handles row occasion⟩ }.touchGroup key := by
  rcases entering : enterAll row (2 :: occasion) store 0 (statement.distinctHandles handles) with
    ⟨grown, entered, fault⟩
  have sliding := statement.slideWindow_fst grown ⟨row, key, entered⟩ (3 :: occasion)
  simp only [aggregateRow, enteredCount, entering, sliding]
  cases fault with
  | some fault => rfl
  | none =>
      dsimp only
      split <;> rfl

section Aggregating

variable {statement : Statement} {store : StateStore} {key : GroupKey}
  {handles : List StateHandle} {row : Row} {occasion : Occasion}

theorem plan_aggregateRow :
    (statement.aggregateRow store key handles row occasion).1.plan = statement.plan := by
  rw [aggregateRow_fst]
  rfl

theorem window_aggregateRow :
    (statement.aggregateRow store key handles row occasion).1.window =
      statement.windowWith ⟨row, key, statement.enteredCount store handles row occasion⟩ := by
  rw [aggregateRow_fst]
  rfl

/-- The groups after a row are those before, with one time changed. -/
theorem mem_groups_aggregateRow
    {group : OpenGroup} :
    group ∈ (statement.aggregateRow store key handles row occasion).1.groups ↔
      ∃ before ∈ statement.groups, group =
        if before.key.same key then { before with lastUpdate := statement.now } else before := by
  rw [aggregateRow_fst]
  simp only [touchGroup, List.mem_map, eq_comm]

end Aggregating

section Running

variable {statement changed : Statement} {store updated : StateStore} {occasion : Occasion}

/-- Opening a group is a move, or nothing when it is open. -/
theorem moves_openGroup
    {key : GroupKey}
    {handles : List StateHandle}
    (running : statement.stopped = false)
    (outcome : statement.openGroup store key occasion = (changed, updated, .ok handles)) :
    changed.stopped = false ∧
      Moves statement store (statement.openCalls store key occasion) changed updated := by
  rcases found : statement.group? key with _ | group
  · refine ⟨?_, .of_move (.opened running found outcome)⟩
    rw [(eq_of_openGroup_ok found outcome).1]
    exact running
  · simp only [openGroup_of_open found, Prod.mk.injEq] at outcome
    obtain ⟨rfl, rfl, _⟩ := outcome
    rw [openCalls, found]
    exact ⟨running, .none⟩

/-- A row is aggregated in its group, which is opened before when it is not open. -/
theorem moves_evaluateRow
    {row : Row}
    {result : RowResult}
    (running : statement.stopped = false)
    (outcome : statement.evaluateRow store row occasion = (changed, updated, .ok result)) :
    changed.stopped = false ∧
      Moves statement store (statement.rowCalls store row occasion) changed updated := by
  rw [evaluateRow] at outcome
  rw [rowCalls]
  rcases selecting : statement.plan.select? row occasion with fault | _ | key
  · simp only [selecting, Prod.mk.injEq] at outcome
    obtain ⟨rfl, rfl, _⟩ := outcome
    exact ⟨running, .none⟩
  · simp only [selecting, Prod.mk.injEq] at outcome
    obtain ⟨rfl, rfl, _⟩ := outcome
    exact ⟨running, .none⟩
  · simp only [selecting] at outcome ⊢
    split at outcome
    next noAggregates =>
        simp only [Prod.mk.injEq] at outcome
        obtain ⟨rfl, rfl, _⟩ := outcome
        rw [if_pos noAggregates]
        exact ⟨running, .none⟩
    next aggregates =>
        rw [if_neg aggregates]
        rcases opening : statement.openGroup store key (5 :: occasion) with
          ⟨opened, obtained, error | handles⟩
        · simp [opening] at outcome
        · simp only [opening, Prod.mk.injEq, Except.ok.injEq] at outcome
          obtain ⟨rfl, rfl, _⟩ := outcome
          obtain ⟨group, isOpen, rfl⟩ := group?_of_openGroup opening
          obtain ⟨stillRunning, opens⟩ := moves_openGroup running opening
          refine ⟨?_, opens.trans (.of_move (.aggregated row occasion stillRunning isOpen))⟩
          rw [aggregateRow_fst]
          exact stillRunning

/-- A row that stops its statement could not open its group. -/
theorem openGroup_of_evaluateRow
    {row : Row}
    {error : ActivationError}
    (outcome : statement.evaluateRow store row occasion = (changed, updated, .error error)) :
    ∃ key, statement.openGroup store key (5 :: occasion) = (changed, updated, .error error) ∧
      statement.rowCalls store row occasion = statement.openCalls store key (5 :: occasion) := by
  rw [evaluateRow] at outcome
  rw [rowCalls]
  rcases selecting : statement.plan.select? row occasion with fault | _ | key
  · simp [selecting] at outcome
  · simp [selecting] at outcome
  · simp only [selecting] at outcome ⊢
    split at outcome
    next => simp at outcome
    next aggregates =>
        rcases opening : statement.openGroup store key (5 :: occasion) with
          ⟨opened, obtained, failed | handles⟩
        · simp only [opening] at outcome
          cases outcome
          refine ⟨key, opening, ?_⟩
          rw [if_neg aggregates]
          exact List.append_nil _
        · simp [opening] at outcome

/--
What has become of rows: they were run to the end, or up to one of which the group could not be
opened.
-/
def RowsRun (statement : Statement) (store : StateStore) (calls : List StoreCall)
    (changed : Statement) (updated : StateStore) : Option ActivationError → Prop
  | none => changed.stopped = false ∧ Moves statement store calls changed updated
  | some error =>
      ∃ earlier held key occasion,
        Moves statement store earlier changed held ∧
          changed.stopped = false ∧
          changed.openGroup held key occasion = (changed, updated, .error error) ∧
          calls = earlier ++ changed.openCalls held key occasion

theorem RowsRun.after
    {middle : Statement}
    {held : StateStore}
    {calls others : List StoreCall}
    {error : Option ActivationError}
    (rest : RowsRun middle held others changed updated error)
    (moves : Moves statement store calls middle held) :
    RowsRun statement store (calls ++ others) changed updated error := by
  cases error with
  | none =>
      exact ⟨rest.1, moves.trans rest.2⟩
  | some error =>
      obtain ⟨earlier, last, key, occasion, further, running, outcome, rfl⟩ := rest
      exact ⟨calls ++ earlier, last, key, occasion, moves.trans further, running, outcome,
        (List.append_assoc _ _ _).symm⟩

theorem error_report
    (output : StatementOutput)
    (result : RowResult) :
    (report output result).error = output.error := by
  cases result <;> rfl

theorem rowsRun_evaluateRows
    {output told : StatementOutput}
    {position : Nat}
    {rows : List Row}
    (running : statement.stopped = false)
    (noError : output.error = none)
    (outcome :
      evaluateRows occasion statement store output position rows = (changed, updated, told)) :
    RowsRun statement store (rowsCalls occasion statement store position rows) changed updated
      told.error := by
  induction rows generalizing statement store output position with
  | nil =>
      cases outcome
      rw [noError]
      exact ⟨running, .none⟩
  | cons row rest inductionHypothesis =>
      rw [rowsCalls]
      rw [evaluateRows] at outcome
      rcases evaluating : statement.evaluateRow store row (position :: occasion) with
        ⟨next, held, error | result⟩
      · simp only [evaluating] at outcome
        cases outcome
        obtain ⟨key, opening, calls⟩ := openGroup_of_evaluateRow evaluating
        obtain ⟨rfl, _⟩ := eq_of_openGroup_error opening
        refine ⟨[], store, key, _, .none, running, opening, ?_⟩
        simp only [calls, List.append_nil, List.nil_append]
      · simp only [evaluating] at outcome ⊢
        obtain ⟨stillRunning, moves⟩ := moves_evaluateRow running evaluating
        refine (inductionHypothesis stillRunning ?_ outcome).after moves
        rw [error_report, noError]

/-- Stopping is a move, or nothing for a stopped statement. -/
theorem moves_stop
    (statement : Statement)
    (store : StateStore) :
    Moves statement store statement.stopCalls (statement.stop store).1 (statement.stop store).2 ∧
      (statement.stop store).1.stopped = true ∧ (statement.stop store).1.id = statement.id := by
  cases running : statement.stopped with
  | true =>
      rw [stopCalls, stop, if_pos running, if_pos running]
      exact ⟨.none, running, rfl⟩
  | false =>
      rw [stopCalls, if_neg (by simp [running])]
      refine ⟨.of_move (.stopped running), ?_⟩
      rw [stop, if_neg (by simp [running])]
      exact ⟨rfl, rfl⟩

/-- After its rows a statement goes on, or it is stopped by a group that could not be opened. -/
theorem moves_settle
    {calls : List StoreCall}
    {told : StatementOutput}
    (run : RowsRun statement store calls changed updated told.error) :
    Moves statement store (calls ++ changed.settleCalls told) (changed.settle updated told).1
        (changed.settle updated told).2.1 ∧
      (changed.settle updated told).1.stopped = told.error.isSome := by
  have same := SameHolding.drain changed told
  have error := error_drain changed told
  rcases draining : changed.drain told with ⟨drained, final⟩
  rw [draining] at same error
  replace error : final.error = told.error := error
  simp only [settle, settleCalls, draining, error]
  rcases failure : told.error with _ | error
  · rw [failure] at run
    refine ⟨?_, same.stopped.trans run.1⟩
    exact run.2.trans (.of_move (.quiet same))
  · rw [failure] at run
    obtain ⟨earlier, held, key, occasion, moves, running, outcome, rfl⟩ := run
    have closed := (eq_of_openGroup_error outcome).2
    have stops : changed.stopCalls = [.releaseStatement changed.id] := by
      rw [stopCalls, if_neg (by simp [running])]
    simp only [Option.isSome_some, if_true, stops, List.append_assoc]
    refine ⟨moves.trans (.of_move (.failed running closed outcome same)), ?_⟩
    rw [stop, if_neg (by rw [same.stopped, running]; simp)]

/-- Taking an event is a sequence of moves. -/
theorem moves_send
    (statement : Statement)
    (store : StateStore)
    (event : Event)
    (occasion : Occasion) :
    Moves statement store (statement.sendCalls store event occasion)
      (statement.send store event occasion).1 (statement.send store event occasion).2.1 := by
  rw [sendCalls, send]
  cases running : statement.stopped with
  | true =>
      exact .none
  | false =>
      have same := SameHolding.rowsOf statement event occasion
      rcases making : statement.rowsOf event occasion with ⟨moved, made⟩
      rw [making] at same
      rcases evaluating : evaluateRows (0 :: occasion) moved store
        ((StatementOutput.blank statement.id statement.plan.name).addFaults made.faults) 0
        made.rows with ⟨changed, updated, told⟩
      simp only [Bool.false_eq_true, if_false, evaluating]
      have run := rowsRun_evaluateRows (same.stopped.trans running) rfl evaluating
      exact (Moves.of_move (.quiet same)).trans (moves_settle run).1

theorem moves_dropGroups
    (statement : Statement)
    (store : StateStore)
    (keys : List GroupKey)
    (running : statement.stopped = false) :
    Moves statement store (keys.map (StoreCall.releaseGroup statement.id))
      (statement.dropGroups store keys).1 (statement.dropGroups store keys).2 := by
  induction keys generalizing statement store with
  | nil =>
      exact .none
  | cons key rest inductionHypothesis =>
      exact (Moves.of_move (.dropped key running)).trans
        (inductionHypothesis (statement.dropGroup store key).1 _ running)

theorem moves_reclaim
    (statement : Statement)
    (store : StateStore)
    (running : statement.stopped = false) :
    Moves statement store statement.reclaimCalls (statement.reclaim store).1
      (statement.reclaim store).2 := by
  rcases reclaiming : statement.reclaimAfter with _ | after
  · simp only [reclaimCalls, reclaim, reclaiming]
    exact .none
  · let searched :=
      { statement with reclaimAfter := some after, lastReclaim := statement.now }
    have same : SameHolding searched statement := ⟨rfl, rfl, rfl, rfl, rfl⟩
    simp only [reclaimCalls, reclaim, reclaiming]
    split
    next =>
        exact (Moves.of_move (.quiet same)).trans (moves_dropGroups searched _ _ running)
    next => exact .none

/-- Taking a point of time is a sequence of moves. -/
theorem moves_advanceTime
    (statement : Statement)
    (store : StateStore)
    (now : Int)
    (occasion : Occasion) :
    Moves statement store (statement.timeCalls store now occasion)
      (statement.advanceTime store now occasion).1
      (statement.advanceTime store now occasion).2.1 := by
  rw [timeCalls, advanceTime]
  split
  next => exact .none
  next awake =>
      have running : statement.stopped = false := by
        simp only [Bool.or_eq_true, not_or, Bool.not_eq_true] at awake
        exact awake.1
      have same := SameHolding.matchesAt statement now
      rcases matching : { statement with now }.matchesAt now with ⟨moved, rows⟩
      rcases evaluating : evaluateRows (0 :: occasion) moved store
        (StatementOutput.blank statement.id statement.plan.name) 0 rows with
        ⟨changed, updated, told⟩
      rw [matching] at same
      have run := rowsRun_evaluateRows (same.stopped.trans running) rfl evaluating
      obtain ⟨moves, ends⟩ := moves_settle run
      rcases settling : changed.settle updated told with ⟨settled, released, final⟩
      rw [settling] at moves ends
      simp only [matching, evaluating, settling]
      refine (Moves.of_move (.quiet same)).trans (moves.trans ?_)
      cases stillRunning : settled.stopped with
      | true => exact .none
      | false => exact moves_reclaim settled released stillRunning

/--
Activation is a sequence of moves from the idle statement.  It ends with the active statement, or
with a stopped one that nobody gets.
-/
theorem moves_activate
    (id : StatementId)
    (plan : Plan)
    (store : StateStore)
    (settings : Settings)
    (patience : Nat)
    (now : Int) :
    ∃ last,
      Moves (idle id plan settings patience now) store
          (activateCalls id plan store settings patience now) last
          (activate id plan store settings patience now).1 ∧
        match (activate id plan store settings patience now).2 with
        | .ok active => active = last ∧ last.stopped = false
        | .error _ => last.stopped = true := by
  rw [activateCalls, activate]
  split
  next => exact ⟨_, .none, rfl, rfl⟩
  next =>
      rcases opening : (idle id plan settings patience now).openGroup store .ungrouped [id] with
        ⟨opened, obtained, error | handles⟩
      · obtain ⟨rfl, closed⟩ := eq_of_openGroup_error opening
        exact ⟨_, .of_move (.failed rfl closed opening (.refl _)), rfl⟩
      · simp only [List.append_nil]
        obtain ⟨running, moves⟩ := moves_openGroup rfl opening
        exact ⟨opened, moves, rfl, running⟩

end Running

section Telling

variable {statement changed : Statement} {store updated : StateStore} {occasion : Occasion}

theorem statement_report
    (output : StatementOutput)
    (result : RowResult) :
    (report output result).statement = output.statement := by
  cases result <;> rfl

theorem statement_evaluateRows
    {output : StatementOutput}
    {position : Nat}
    {rows : List Row} :
    (evaluateRows occasion statement store output position rows).2.2.statement =
      output.statement := by
  induction rows generalizing statement store output position with
  | nil =>
      rfl
  | cons row rest inductionHypothesis =>
      rw [evaluateRows]
      split
      next => rfl
      next => rw [inductionHypothesis, statement_report]

/-- What is told in the end is told of the same statement, with the same error. -/
theorem told_settle
    (statement : Statement)
    (store : StateStore)
    (output : StatementOutput) :
    (statement.settle store output).2.2.statement = output.statement ∧
      (statement.settle store output).2.2.error = output.error := by
  have error := error_drain statement output
  have told : (statement.drain output).2.statement = output.statement := by
    rw [drain]
    split <;> rfl
  rcases draining : statement.drain output with ⟨drained, final⟩
  rw [draining] at error told
  simp only [settle, draining]
  split <;> exact ⟨told, error⟩

/-- After its rows a statement tells of itself, and it is stopped when it tells an error. -/
theorem told_rows
    {output told : StatementOutput}
    {rows : List Row}
    (running : statement.stopped = false)
    (noError : output.error = none)
    (outcome : evaluateRows occasion statement store output 0 rows = (changed, updated, told)) :
    (changed.settle updated told).2.2.statement = output.statement ∧
      (changed.settle updated told).1.stopped = (changed.settle updated told).2.2.error.isSome := by
  obtain ⟨sameStatement, sameError⟩ := told_settle changed updated told
  have isTold : told.statement = output.statement :=
    (congrArg (fun outcome => outcome.2.2.statement) outcome).symm.trans statement_evaluateRows
  rw [sameStatement, sameError]
  exact ⟨isTold, (moves_settle (rowsRun_evaluateRows running noError outcome)).2⟩

/-- An error in the output of an event tells that the statement is stopped. -/
theorem told_send
    (statement : Statement)
    (store : StateStore)
    (event : Event)
    (occasion : Occasion) :
    (statement.send store event occasion).2.2.statement = statement.id ∧
      ((statement.send store event occasion).2.2.error.isSome →
        (statement.send store event occasion).1.stopped = true) := by
  rw [send]
  cases running : statement.stopped with
  | true =>
      exact ⟨rfl, fun failed => by cases failed⟩
  | false =>
      have same := SameHolding.rowsOf statement event occasion
      rcases making : statement.rowsOf event occasion with ⟨moved, made⟩
      rw [making] at same
      rcases evaluating : evaluateRows (0 :: occasion) moved store
        ((StatementOutput.blank statement.id statement.plan.name).addFaults made.faults) 0
        made.rows with ⟨changed, updated, told⟩
      obtain ⟨isTold, ends⟩ := told_rows (same.stopped.trans running) rfl evaluating
      simp only [Bool.false_eq_true, if_false, evaluating]
      exact ⟨isTold, ends.trans⟩

/-- An error in the output of a point of time tells that the statement is stopped. -/
theorem told_advanceTime
    (statement : Statement)
    (store : StateStore)
    (now : Int)
    (occasion : Occasion) :
    (statement.advanceTime store now occasion).2.2.statement = statement.id ∧
      ((statement.advanceTime store now occasion).2.2.error.isSome →
        (statement.advanceTime store now occasion).1.stopped = true) := by
  rw [advanceTime]
  split
  next => exact ⟨rfl, fun failed => by cases failed⟩
  next awake =>
      have running : statement.stopped = false := by
        simp only [Bool.or_eq_true, not_or, Bool.not_eq_true] at awake
        exact awake.1
      have same := SameHolding.matchesAt statement now
      rcases matching : { statement with now }.matchesAt now with ⟨moved, rows⟩
      rw [matching] at same
      rcases evaluating : evaluateRows (0 :: occasion) moved store
        (StatementOutput.blank statement.id statement.plan.name) 0 rows with
        ⟨changed, updated, told⟩
      obtain ⟨isTold, ends⟩ := told_rows (same.stopped.trans running) rfl evaluating
      rcases settling : changed.settle updated told with ⟨settled, released, final⟩
      rw [settling] at isTold ends
      simp only [matching, evaluating, settling]
      cases ended : settled.stopped with
      | true => exact ⟨isTold, fun _ => ended⟩
      | false => exact ⟨isTold, fun failed => by cases ended.symm.trans (ends.trans failed)⟩

end Telling

namespace Move

variable {statement next : Statement} {store left : StateStore} {calls : List StoreCall}

/-- A move leaves its statement with its number and its plan. -/
theorem same
    (move : Move statement store calls next left) :
    next.id = statement.id ∧ next.plan = statement.plan := by
  cases move with
  | quiet same => exact ⟨same.id, same.plan⟩
  | opened running closed outcome =>
      rw [(eq_of_openGroup_ok closed outcome).1]
      exact ⟨rfl, rfl⟩
  | aggregated row occasion running isOpen =>
      rw [aggregateRow_fst]
      exact ⟨rfl, rfl⟩
  | dropped key running => exact ⟨rfl, rfl⟩
  | stopped running =>
      rw [stop, if_neg (by simp [running])]
      exact ⟨rfl, rfl⟩
  | failed running closed outcome same =>
      have unchanged := (eq_of_openGroup_error outcome).1
      rw [stop]
      split <;> exact ⟨same.id.trans (by rw [unchanged]), same.plan.trans (by rw [unchanged])⟩
  | cleared ended => exact ⟨rfl, rfl⟩

/-- The store after a move is what the calls have made of it. -/
theorem performed
    (move : Move statement store calls next left) :
    left = store.performAll calls := by
  cases move with
  | quiet same => rfl
  | opened running closed outcome => rw [performAll_openCalls, outcome]
  | aggregated row occasion running isOpen => rw [performAll_aggregateCalls]
  | dropped key running => rfl
  | stopped running =>
      rw [stop, if_neg (by simp [running])]
      rfl
  | failed running closed outcome same =>
      obtain ⟨rfl, _⟩ := eq_of_openGroup_error outcome
      rw [StateStore.performAll_append, performAll_openCalls, outcome, stop,
        if_neg (by simp [same.stopped, running]), same.id]
      rfl
  | cleared ended => rfl

/-- A stopped statement stays stopped. -/
theorem stays_stopped
    (move : Move statement store calls next left)
    (ended : statement.stopped = true) :
    next.stopped = true := by
  cases move with
  | quiet same => exact same.stopped.trans ended
  | cleared => exact ended
  | opened running => cases running.symm.trans ended
  | aggregated row occasion running => cases running.symm.trans ended
  | dropped key running => cases running.symm.trans ended
  | stopped running => cases running.symm.trans ended
  | failed running => cases running.symm.trans ended

end Move

/-- Moves leave a statement with its number and its plan. -/
theorem Moves.same
    {statement next : Statement}
    {store left : StateStore}
    {calls : List StoreCall}
    (moves : Moves statement store calls next left) :
    next.id = statement.id ∧ next.plan = statement.plan := by
  induction moves with
  | none => exact ⟨rfl, rfl⟩
  | more _ move inductionHypothesis =>
      exact ⟨move.same.1.trans inductionHypothesis.1, move.same.2.trans inductionHypothesis.2⟩

/-- The store after moves is what the calls have made of it. -/
theorem Moves.performed
    {statement next : Statement}
    {store left : StateStore}
    {calls : List StoreCall}
    (moves : Moves statement store calls next left) :
    left = store.performAll calls := by
  induction moves with
  | none => rfl
  | more _ move inductionHypothesis =>
      rw [StateStore.performAll_append, ← inductionHypothesis, move.performed]

/-- A stopped statement stays stopped, whatever moves it makes. -/
theorem Moves.stays_stopped
    {statement next : Statement}
    {store left : StateStore}
    {calls : List StoreCall}
    (moves : Moves statement store calls next left)
    (ended : statement.stopped = true) :
    next.stopped = true := by
  induction moves with
  | none => exact ended
  | more _ move inductionHypothesis => exact move.stays_stopped inductionHypothesis

end Statement

end EventQuery
