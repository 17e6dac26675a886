import EventQuery.Proofs.Statement.Frame
import EventQuery.Proofs.Statement.InStep

namespace EventQuery

namespace Statement

/-!
# Rows that are told

An output row is made while its statement holds the row of the source that it is made from: in the
course of the calls that the statement makes there is a moment, between two of its moves, at which
the row of the source is the latest that has entered the states of its group, and the states have
the results that the output row shows.
-/

/-- How an output row comes about in a statement, with or without results of aggregations. -/
inductive Tells (statement : Statement) (store : StateStore) (trace : StoreTrace)
    (told : OutputRow) : Prop
  | bare (row : Row) (occasion : Occasion)
      (noAggregates : statement.plan.aggregates = [])
      (shown : statement.plan.project row occasion = .output told)
  | aggregated {group : OpenGroup} {key : GroupKey} {results : Row} (row : Row)
      (occasion : Occasion)
      (selected : statement.plan.select? row occasion = .ok (some key))
      (isOpen : group ∈ statement.groups)
      (isGroup : (group.key == key) = true)
      (latest :
        ∀ handle ∈ statement.distinctHandles group.handles,
          ∃ earlier, trace.entered handle.serial = earlier ++ [row])
      (read : readAll store statement.plan.aggregates group.handles = some results)
      (shown :
        statement.plan.project (statement.plan.extendRow row results) occasion = .output told)

/-- Whether a statement comes to tell an output row in the course of calls. -/
def ComesToTell (statement : Statement) (store : StateStore) (calls : List StoreCall)
    (told : OutputRow) : Prop :=
  ∃ earlier later middle held, calls = earlier ++ later ∧
    Moves statement store earlier middle held ∧ middle.Tells held (store.trace earlier) told

variable {statement changed : Statement} {store updated : StateStore} {occasion : Occasion}
  {told : OutputRow} {calls others : List StoreCall} {trace : StoreTrace}

/-- What came before the latest row makes no difference to a row that is told. -/
theorem Tells.after
    (telling : Tells statement store trace told)
    (before : StoreTrace) :
    Tells statement store (before ++ trace) told := by
  cases telling with
  | bare row occasion noAggregates shown => exact .bare row occasion noAggregates shown
  | aggregated row occasion selected isOpen isGroup latest read shown =>
      refine .aggregated row occasion selected isOpen isGroup (fun handle member => ?_) read shown
      obtain ⟨earlier, isLatest⟩ := latest handle member
      refine ⟨before.entered handle.serial ++ earlier, ?_⟩
      rw [StoreTrace.entered_append, isLatest, List.append_assoc]

namespace ComesToTell

theorem after
    {middle : Statement}
    {held : StateStore}
    (telling : ComesToTell middle held others told)
    (moves : Moves statement store calls middle held) :
    ComesToTell statement store (calls ++ others) told := by
  obtain ⟨earlier, later, last, left, rfl, further, tells⟩ := telling
  refine ⟨calls ++ earlier, later, last, left, (List.append_assoc _ _ _).symm,
    moves.trans further, ?_⟩
  rw [StateStore.trace_append, ← moves.performed]
  exact tells.after _

theorem before
    (telling : ComesToTell statement store calls told)
    (others : List StoreCall) :
    ComesToTell statement store (calls ++ others) told := by
  obtain ⟨earlier, later, last, left, rfl, moves, tells⟩ := telling
  exact ⟨earlier, later ++ others, last, left, List.append_assoc _ _ _, moves, tells⟩

end ComesToTell

/-- A row that makes no fault enters all states. -/
theorem entered_of_enterAll
    {row : Row}
    {entered last : Nat}
    {handles : List StateHandle}
    (outcome : enterAll row occasion store entered handles = (updated, last, none)) :
    last = entered + handles.length := by
  induction handles generalizing store entered with
  | nil =>
      cases outcome
      rfl
  | cons handle rest inductionHypothesis =>
      rcases entering : store.enter handle row (entered :: occasion) with ⟨changed, none | fault⟩
      · rw [enterAll, entering] at outcome
        rw [inductionHypothesis outcome, List.length_cons]
        omega
      · rw [enterAll, entering] at outcome
        cases outcome

/-- A row that makes no fault is the latest that has entered the states of its group. -/
theorem latest_of_enterAll
    (key : GroupKey)
    {handles : List StateHandle}
    {row : Row}
    {last : Nat}
    (outcome :
      enterAll row (2 :: occasion) store 0 (statement.distinctHandles handles) =
        (updated, last, none)) :
    ∀ handle ∈ statement.distinctHandles handles,
      ∃ earlier,
        (store.trace (statement.aggregateCalls store key handles row occasion)).entered
          handle.serial = earlier ++ [row] := by
  intro handle member
  obtain ⟨entries, exits, traced, enters, _, noEntry, _⟩ :=
    trace_aggregateCalls statement row occasion store key handles
  have all : statement.enteredCount store handles row occasion =
      (statement.distinctHandles handles).length := by
    rw [enteredCount, outcome, entered_of_enterAll outcome, Nat.zero_add]
  let own := (statement.distinctHandles handles).filter fun other => other.serial == handle.serial
  have isOwn : handle ∈ own := List.mem_filter.mpr ⟨member, beq_self_eq_true _⟩
  obtain ⟨fewer, isLength⟩ := Nat.exists_eq_add_one.mpr (List.length_pos_of_mem isOwn)
  refine ⟨List.replicate fewer row, ?_⟩
  rw [traced, StoreTrace.entered_append, noEntry, enters, all, List.take_length, List.append_nil,
    List.map_const', isLength, List.replicate_succ']

/-- A row that is aggregated is told with the results in the states of its group. -/
theorem tells_of_aggregateRow
    {key : GroupKey}
    {group : OpenGroup}
    {row : Row}
    (isOpen : statement.group? key = some group)
    (selected : statement.plan.select? row occasion = .ok (some key))
    (outcome : (statement.aggregateRow store key group.handles row occasion).2.2 = .output told) :
    Tells (statement.aggregateRow store key group.handles row occasion).1
      (statement.aggregateRow store key group.handles row occasion).2.1
      (store.trace (statement.aggregateCalls store key group.handles row occasion)) told := by
  obtain ⟨member, same⟩ := mem_of_group? isOpen
  let taken := (statement.aggregateRow store key group.handles row occasion).1
  have samePlan : taken.plan = statement.plan := plan_aggregateRow
  have isMember : _ ∈ taken.groups := mem_groups_aggregateRow.mpr ⟨group, member, rfl⟩
  rcases entering : enterAll row (2 :: occasion) store 0
    (statement.distinctHandles group.handles) with ⟨grown, entered, none | fault⟩
  · have latest := latest_of_enterAll key entering
    rcases sliding : statement.slideWindow grown ⟨row, key, entered⟩ (3 :: occasion) with
      ⟨slid, shrunk⟩
    simp only [taken, aggregateRow, entering, sliding] at outcome samePlan isMember ⊢
    rcases results : readAll shrunk statement.plan.aggregates group.handles with _ | results
    · simp [results] at outcome
    · simp only [results] at outcome samePlan isMember ⊢
      refine .aggregated row occasion (samePlan ▸ selected) isMember ?_ ?_ ?_
        (samePlan ▸ outcome)
      · split <;> exact same
      · rw [distinctHandles, samePlan]
        split <;> exact latest
      · rw [samePlan]
        split <;> exact results
  · simp only [aggregateRow, entering] at outcome
    cases outcome

/-- A row is told when it has been run. -/
theorem tells_of_evaluateRow
    {row : Row}
    (outcome :
      statement.evaluateRow store row occasion = (changed, updated, .ok (.output told))) :
    changed.Tells updated (store.trace (statement.rowCalls store row occasion)) told := by
  rw [evaluateRow] at outcome
  rw [rowCalls]
  rcases selecting : statement.plan.select? row occasion with fault | _ | key
  · simp [selecting] at outcome
  · simp [selecting] at outcome
  · simp only [selecting] at outcome
    split at outcome
    next noAggregates =>
        simp only [Prod.mk.injEq, Except.ok.injEq] at outcome
        obtain ⟨rfl, rfl, shown⟩ := outcome
        exact .bare row occasion (List.isEmpty_iff.mp noAggregates) shown
    next aggregates =>
        rcases opening : statement.openGroup store key (5 :: occasion) with
          ⟨opened, obtained, error | handles⟩
        · simp [opening] at outcome
        · simp only [opening, Prod.mk.injEq, Except.ok.injEq] at outcome
          obtain ⟨rfl, rfl, shown⟩ := outcome
          obtain ⟨group, isOpen, rfl⟩ := group?_of_openGroup opening
          have opens := SameFrame.openGroup statement store key (5 :: occasion)
          rw [opening] at opens
          have samePlan : opened.plan = statement.plan := opens.plan
          have isObtained :
              obtained = store.performAll (statement.openCalls store key (5 :: occasion)) := by
            rw [performAll_openCalls, opening]
          simp only [if_neg aggregates, opening]
          rw [StateStore.trace_append, ← isObtained]
          exact (tells_of_aggregateRow isOpen (samePlan ▸ selecting) shown).after _

/-- Each output row of some rows is told when its row has been run. -/
theorem tells_of_evaluateRows
    {output last : StatementOutput}
    {position : Nat}
    {rows : List Row}
    (running : statement.stopped = false)
    (outcome :
      evaluateRows occasion statement store output position rows = (changed, updated, last))
    (member : told ∈ last.rows) :
    told ∈ output.rows ∨
      ComesToTell statement store (rowsCalls occasion statement store position rows) told := by
  induction rows generalizing statement store output position with
  | nil =>
      cases outcome
      exact .inl member
  | cons row rest inductionHypothesis =>
      rw [rowsCalls]
      rw [evaluateRows] at outcome
      rcases evaluating : statement.evaluateRow store row (position :: occasion) with
        ⟨next, held, error | result⟩
      · simp only [evaluating] at outcome
        cases outcome
        exact .inl member
      · simp only [evaluating] at outcome ⊢
        obtain ⟨stillRunning, moves⟩ := moves_evaluateRow running evaluating
        rcases inductionHypothesis stillRunning outcome with earlier | later
        · cases result with
          | output row =>
              rcases List.mem_append.mp earlier with before | now
              · exact .inl before
              · obtain rfl := List.mem_singleton.mp now
                exact .inr ⟨_, _, next, held, rfl, moves, tells_of_evaluateRow evaluating⟩
          | filtered => exact .inl earlier
          | faulted fault => exact .inl earlier
          | stateGone => exact .inl earlier
        · exact .inr (later.after moves)

/-- Faults of the pattern and an error at the end change no output row. -/
theorem rows_settle
    (statement : Statement)
    (store : StateStore)
    (output : StatementOutput) :
    (statement.settle store output).2.2.rows = output.rows := by
  have drained : (statement.drain output).2.rows = output.rows := by
    rw [drain]
    split <;> rfl
  rcases draining : statement.drain output with ⟨moved, final⟩
  rw [draining] at drained
  simp only [settle, draining]
  split <;> exact drained

/-- Each output row of an event is told in the course of taking the event. -/
theorem tells_of_send
    {event : Event}
    (member : told ∈ (statement.send store event occasion).2.2.rows) :
    ComesToTell statement store (statement.sendCalls store event occasion) told := by
  rw [send] at member
  rw [sendCalls]
  cases running : statement.stopped with
  | true =>
      rw [running] at member
      cases member
  | false =>
      have same := SameHolding.rowsOf statement event occasion
      rcases making : statement.rowsOf event occasion with ⟨moved, made⟩
      rw [making] at same
      rcases evaluating : evaluateRows (0 :: occasion) moved store
        ((StatementOutput.blank statement.id statement.plan.name).addFaults made.faults) 0
        made.rows with ⟨changed, updated, last⟩
      simp only [running, making, evaluating, Bool.false_eq_true, if_false, rows_settle] at member ⊢
      rcases tells_of_evaluateRows (same.stopped.trans running) evaluating member with
        nothing | telling
      · cases nothing
      · exact (telling.before _).after (.of_move (.quiet same))

/-- Each output row of a point of time is told in the course of taking the point of time. -/
theorem tells_of_advanceTime
    {now : Int}
    (member : told ∈ (statement.advanceTime store now occasion).2.2.rows) :
    ComesToTell statement store (statement.timeCalls store now occasion) told := by
  rw [advanceTime] at member
  rw [timeCalls]
  split at member
  next => cases member
  next awake =>
      have running : statement.stopped = false := by
        simp only [Bool.or_eq_true, not_or, Bool.not_eq_true] at awake
        exact awake.1
      have same := SameHolding.matchesAt statement now
      rcases matching : { statement with now }.matchesAt now with ⟨moved, rows⟩
      rw [matching] at same
      rcases evaluating : evaluateRows (0 :: occasion) moved store
        (StatementOutput.blank statement.id statement.plan.name) 0 rows with
        ⟨changed, updated, last⟩
      have isLast := changed.rows_settle updated last
      rcases settling : changed.settle updated last with ⟨settled, released, final⟩
      rw [settling] at isLast
      simp only [matching, evaluating, settling] at member
      rw [if_neg awake]
      simp only [matching, evaluating, settling, List.append_assoc]
      have inLast : told ∈ last.rows := by
        rw [← isLast]
        split at member <;> exact member
      rcases tells_of_evaluateRows (same.stopped.trans running) evaluating inLast with
        nothing | telling
      · cases nothing
      · exact (telling.before _).after (.of_move (.quiet same))

end Statement

end EventQuery
