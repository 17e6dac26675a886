import EventQuery.Proofs.Store.Calls
import EventQuery.Statement.Run

namespace EventQuery

namespace Statement

/-!
# What statements ask of the store

For each thing that a statement does, the calls that the store gets are written down in their order.
The store that a statement leaves behind is what these calls have made of it, and what the statement
does with faults and results is what the answers to these calls say.
-/

/-- The calls for the states of a group, up to one that cannot be created. -/
def obtainCalls (id : StatementId) (key : GroupKey) (occasion : Occasion) (store : StateStore)
    (position : Nat) : List AggregateSlot → List StoreCall
  | [] => []
  | aggregate :: rest =>
      .obtain id key aggregate.handler (position :: occasion) ::
        match store.obtain id key aggregate.handler (position :: occasion) with
        | (_, .error _) => []
        | (obtained, .ok _) => obtainCalls id key occasion obtained (position + 1) rest

/-- The calls that open a group, none when it is open. -/
def openCalls (statement : Statement) (store : StateStore) (key : GroupKey) (occasion : Occasion) :
    List StoreCall :=
  match statement.group? key with
  | some _ => []
  | none => obtainCalls statement.id key occasion store 0 statement.plan.aggregates

/-- The calls by which a row enters states, up to a fault. -/
def enterCalls (row : Row) (occasion : Occasion) (store : StateStore) (entered : Nat) :
    List StateHandle → List StoreCall
  | [] => []
  | handle :: rest =>
      .enter handle row (entered :: occasion) ::
        match store.enter handle row (entered :: occasion) with
        | (changed, none) => enterCalls row occasion changed (entered + 1) rest
        | (_, some _) => []

/-- The calls by which a row leaves states. -/
def leaveCalls (row : Row) (occasion : Occasion) (left : Nat) : List StateHandle → List StoreCall
  | [] => []
  | handle :: rest =>
      .leave handle row (left :: occasion) :: leaveCalls row occasion (left + 1) rest

/-- The calls by which rows that are pushed out leave the states that they entered. -/
def expireCalls (statement : Statement) (occasion : Occasion) (position : Nat) :
    List WindowRow → List StoreCall
  | [] => []
  | expired :: rest =>
      leaveCalls expired.row (position :: occasion) 0 (statement.enteredHandles expired) ++
        expireCalls statement occasion (position + 1) rest

/-- The rows that are pushed out of the window when a row is added. -/
def pushedOut (statement : Statement) (added : WindowRow) : List WindowRow :=
  match statement.plan.window with
  | none => []
  | some size =>
      (statement.window ++ [added]).take ((statement.window ++ [added]).length - size)

/-- The calls that read results, up to a state that is gone. -/
def readCalls (store : StateStore) : List (AggregateSlot × StateHandle) → List StoreCall
  | [] => []
  | (aggregate, handle) :: rest =>
      .read handle aggregate.handler ::
        match store.read? handle aggregate.handler with
        | none => []
        | some _ => readCalls store rest

/-- The calls by which a row of a group is aggregated. -/
def aggregateCalls (statement : Statement) (store : StateStore) (key : GroupKey)
    (handles : List StateHandle) (row : Row) (occasion : Occasion) : List StoreCall :=
  let entering :=
    enterCalls row (2 :: occasion) store 0 (statement.distinctHandles handles)
  let (grown, entered, fault) :=
    enterAll row (2 :: occasion) store 0 (statement.distinctHandles handles)
  let leaving :=
    statement.expireCalls (3 :: occasion) 0 (statement.pushedOut ⟨row, key, entered⟩)
  let (_, shrunk) := statement.slideWindow grown ⟨row, key, entered⟩ (3 :: occasion)
  entering ++ leaving ++
    if fault.isSome then [] else readCalls shrunk (statement.plan.aggregates.zip handles)

/-- The calls for a row. -/
def rowCalls (statement : Statement) (store : StateStore) (row : Row) (occasion : Occasion) :
    List StoreCall :=
  match statement.plan.select? row occasion with
  | .error _ => []
  | .ok none => []
  | .ok (some key) =>
      if statement.plan.aggregates.isEmpty then []
      else
        statement.openCalls store key (5 :: occasion) ++
          match statement.openGroup store key (5 :: occasion) with
          | (_, _, .error _) => []
          | (opened, obtained, .ok handles) =>
              opened.aggregateCalls obtained key handles row occasion

/-- The calls for rows, up to an error. -/
def rowsCalls (occasion : Occasion) (statement : Statement) (store : StateStore) (position : Nat) :
    List Row → List StoreCall
  | [] => []
  | row :: rest =>
      statement.rowCalls store row (position :: occasion) ++
        match statement.evaluateRow store row (position :: occasion) with
        | (_, _, .error _) => []
        | (changed, updated, .ok _) => rowsCalls occasion changed updated (position + 1) rest

/-- The calls that stop a statement. -/
def stopCalls (statement : Statement) : List StoreCall :=
  if statement.stopped then [] else [.releaseStatement statement.id]

/-- The calls after the rows of an event or of a point of time, which stop after an error. -/
def settleCalls (statement : Statement) (output : StatementOutput) : List StoreCall :=
  if output.error.isSome then statement.stopCalls else []

/-- The calls for an event. -/
def sendCalls (statement : Statement) (store : StateStore) (event : Event) (occasion : Occasion) :
    List StoreCall :=
  if statement.stopped then []
  else
    let (moved, made) := statement.rowsOf event occasion
    let output := (StatementOutput.blank statement.id statement.plan.name).addFaults made.faults
    let (changed, _, told) := evaluateRows (0 :: occasion) moved store output 0 made.rows
    rowsCalls (0 :: occasion) moved store 0 made.rows ++ changed.settleCalls told

/-- The calls that drop idle groups. -/
def reclaimCalls (statement : Statement) : List StoreCall :=
  match statement.reclaimAfter with
  | none => []
  | some after =>
      if statement.plan.isGrouped &&
          statement.reclaimEvery ≤ statement.now - statement.lastReclaim then
        (statement.idleKeys after).map (StoreCall.releaseGroup statement.id)
      else []

/-- The calls for a point of time. -/
def timeCalls (statement : Statement) (store : StateStore) (now : Int) (occasion : Occasion) :
    List StoreCall :=
  if statement.stopped || now < statement.now then []
  else
    let output := StatementOutput.blank statement.id statement.plan.name
    let (moved, rows) := { statement with now }.matchesAt now
    let (changed, updated, told) := evaluateRows (0 :: occasion) moved store output 0 rows
    let (settled, _, _) := changed.settle updated told
    rowsCalls (0 :: occasion) moved store 0 rows ++ changed.settleCalls told ++
      if settled.stopped then [] else settled.reclaimCalls

/-- The calls that activate a plan. -/
def activateCalls (id : StatementId) (plan : Plan) (store : StateStore) (settings : Settings)
    (patience : Nat) (now : Int) : List StoreCall :=
  let statement := idle id plan settings patience now
  if plan.isGrouped || plan.aggregates.isEmpty then []
  else
    statement.openCalls store .ungrouped [id] ++
      match statement.openGroup store .ungrouped [id] with
      | (_, _, .error _) => [.releaseStatement id]
      | (_, _, .ok _) => []

/-- Whether two statements are one statement that holds the same groups and rows. -/
structure SameHolding (first second : Statement) : Prop where
  id : first.id = second.id
  plan : first.plan = second.plan
  groups : first.groups = second.groups
  window : first.window = second.window
  stopped : first.stopped = second.stopped

namespace SameHolding

theorem refl (statement : Statement) : SameHolding statement statement := ⟨rfl, rfl, rfl, rfl, rfl⟩

/-- Telling the faults of the pattern changes nothing that a statement holds. -/
theorem drain
    (statement : Statement)
    (output : StatementOutput) :
    SameHolding (statement.drain output).1 statement := by
  rw [Statement.drain]
  split <;> exact ⟨rfl, rfl, rfl, rfl, rfl⟩

/-- Making rows of an event changes nothing that a statement holds. -/
theorem rowsOf
    (statement : Statement)
    (event : Event)
    (occasion : Occasion) :
    SameHolding (statement.rowsOf event occasion).1 statement := by
  rw [Statement.rowsOf]
  split
  next => exact .refl statement
  next => split <;> exact ⟨rfl, rfl, rfl, rfl, rfl⟩
  next => exact ⟨rfl, rfl, rfl, rfl, rfl⟩

/-- Making rows of a point of time changes nothing that a statement holds. -/
theorem matchesAt
    (statement : Statement)
    (now : Int) :
    SameHolding ({ statement with now }.matchesAt now).1 statement := by
  rw [Statement.matchesAt]
  split <;> exact ⟨rfl, rfl, rfl, rfl, rfl⟩

end SameHolding

/-- Telling the faults of the pattern is no error. -/
theorem error_drain
    (statement : Statement)
    (output : StatementOutput) :
    (statement.drain output).2.error = output.error := by
  rw [drain]
  split <;> rfl

section Stores

open StateStore (performAll_append)

variable (statement : Statement) (store : StateStore) (occasion : Occasion)

theorem performAll_obtainCalls
    (id : StatementId)
    (key : GroupKey)
    (position : Nat)
    (aggregates : List AggregateSlot) :
    store.performAll (obtainCalls id key occasion store position aggregates) =
      (obtainAll id key occasion store position aggregates).1 := by
  induction aggregates generalizing store position with
  | nil =>
      rfl
  | cons aggregate rest inductionHypothesis =>
      rcases outcome : store.obtain id key aggregate.handler (position :: occasion) with
        ⟨obtained, error | handle⟩
      · simp only [obtainCalls, obtainAll, StateStore.performAll, StateStore.perform, outcome]
      · simp only [obtainCalls, obtainAll, StateStore.performAll, StateStore.perform, outcome,
          inductionHypothesis]
        rcases obtainAll id key occasion obtained (position + 1) rest with ⟨last, _ | _⟩ <;> rfl

theorem performAll_openCalls
    (key : GroupKey) :
    store.performAll (statement.openCalls store key occasion) =
      (statement.openGroup store key occasion).2.1 := by
  rw [openCalls, openGroup]
  cases statement.group? key with
  | some group =>
      rfl
  | none =>
      refine (performAll_obtainCalls _ _ _ _ _ _).trans ?_
      rcases obtainAll statement.id key occasion store 0 statement.plan.aggregates with
        ⟨last, _ | _⟩ <;> rfl

theorem performAll_enterCalls
    (row : Row)
    (entered : Nat)
    (handles : List StateHandle) :
    store.performAll (enterCalls row occasion store entered handles) =
      (enterAll row occasion store entered handles).1 := by
  induction handles generalizing store entered with
  | nil =>
      rfl
  | cons handle rest inductionHypothesis =>
      rcases outcome : store.enter handle row (entered :: occasion) with ⟨changed, none | fault⟩
      · simp only [enterCalls, enterAll, StateStore.performAll, StateStore.perform, outcome,
          inductionHypothesis]
      · simp only [enterCalls, enterAll, StateStore.performAll, StateStore.perform, outcome]

theorem performAll_leaveCalls
    (row : Row)
    (left : Nat)
    (handles : List StateHandle) :
    store.performAll (leaveCalls row occasion left handles) =
      leaveAll row occasion store left handles := by
  induction handles generalizing store left with
  | nil =>
      rfl
  | cons handle rest inductionHypothesis =>
      exact inductionHypothesis _ _

theorem performAll_expireCalls
    (position : Nat)
    (rows : List WindowRow) :
    store.performAll (statement.expireCalls occasion position rows) =
      statement.expireRows occasion store position rows := by
  induction rows generalizing store position with
  | nil =>
      rfl
  | cons expired rest inductionHypothesis =>
      rw [expireCalls, expireRows, performAll_append, performAll_leaveCalls]
      exact inductionHypothesis _ _

/-- Sliding the window takes the rows that are pushed out out of their states. -/
theorem performAll_slideCalls
    (added : WindowRow) :
    store.performAll (statement.expireCalls occasion 0 (statement.pushedOut added)) =
      (statement.slideWindow store added occasion).2 := by
  rw [performAll_expireCalls, pushedOut, slideWindow]
  cases statement.plan.window <;> rfl

/-- Reading changes nothing. -/
theorem performAll_readCalls
    (slots : List (AggregateSlot × StateHandle)) :
    store.performAll (readCalls store slots) = store := by
  induction slots with
  | nil =>
      rfl
  | cons slot rest inductionHypothesis =>
      rw [readCalls, StateStore.performAll, StateStore.perform]
      split
      next => rfl
      next => exact inductionHypothesis

theorem performAll_aggregateCalls
    (key : GroupKey)
    (handles : List StateHandle)
    (row : Row) :
    store.performAll (statement.aggregateCalls store key handles row occasion) =
      (statement.aggregateRow store key handles row occasion).2.1 := by
  rcases entering : enterAll row (2 :: occasion) store 0 (statement.distinctHandles handles) with
    ⟨grown, entered, fault⟩
  rcases sliding : statement.slideWindow grown ⟨row, key, entered⟩ (3 :: occasion) with
    ⟨slid, shrunk⟩
  have isGrown : store.performAll
      (enterCalls row (2 :: occasion) store 0 (statement.distinctHandles handles)) = grown := by
    rw [performAll_enterCalls, entering]
  have isShrunk : grown.performAll
      (statement.expireCalls (3 :: occasion) 0 (statement.pushedOut ⟨row, key, entered⟩)) =
        shrunk := by
    rw [performAll_slideCalls, sliding]
  simp only [aggregateCalls, aggregateRow, entering, sliding, performAll_append, isGrown, isShrunk]
  cases fault with
  | some fault =>
      rfl
  | none =>
      refine (performAll_readCalls _ _).trans ?_
      cases readAll shrunk statement.plan.aggregates handles <;> rfl

/-- Results are absent exactly when a read finds nothing. -/
theorem readAll_eq_none_iff
    (aggregates : List AggregateSlot)
    (handles : List StateHandle) :
    readAll store aggregates handles = none ↔
      ∃ entry ∈ store.trace (readCalls store (aggregates.zip handles)),
        entry.2 = .result none := by
  rw [readAll]
  induction aggregates.zip handles with
  | nil =>
      simp [readCalls, StateStore.trace]
  | cons slot rest inductionHypothesis =>
      rw [List.mapM_cons, readCalls, StateStore.trace, StateStore.perform]
      generalize List.mapM (m := Option) _ rest = results at inductionHypothesis ⊢
      rcases reading : store.read? slot.2 slot.1.handler with _ | value
      · simp [reading]
      · cases results <;> simp [reading, ← inductionHypothesis]

end Stores

end Statement

end EventQuery
