import EventQuery.Statement.Row

namespace EventQuery

/-!
# Life of a statement

A statement is activated, takes events and points of time, and is stopped from outside or by an
error.  A stopped statement holds nothing and takes nothing.
-/

namespace Statement

/-- Drop everything that the statement holds, in the statement and in the store. -/
def stop (statement : Statement) (store : StateStore) : Statement × StateStore :=
  if statement.stopped then (statement, store)
  else
    ({ statement with
        stopped := true
        engine := statement.engine.map Engine.stop
        groups := []
        window := []
        buffers := .empty },
      (store.releaseStatement statement.id).1)

/--
Activate a plan.  Without grouping there is one group, which is opened at once, so that a state that
cannot be created refuses the statement; then the states created before it are released.
-/
def activate (id : StatementId) (plan : Plan) (store : StateStore) (settings : Settings)
    (patience : Nat) (now : Int) : StateStore × Except ActivationError Statement :=
  let statement := idle id plan settings patience now
  if plan.isGrouped || plan.aggregates.isEmpty then (store, .ok statement)
  else
    match statement.openGroup store .ungrouped [id] with
    | (_, obtained, .error error) => ((obtained.releaseStatement id).1, .error error)
    | (opened, obtained, .ok _) => (obtained, .ok opened)

/-- Tell the faults of the pattern. -/
def drain (statement : Statement) (output : StatementOutput) : Statement × StatementOutput :=
  match statement.engine with
  | none => (statement, output)
  | some engine =>
      let (drained, faults) := engine.drainFaults
      ({ statement with engine := some drained }, output.addFaults faults)

/-- The faults of the pattern are told, and a statement with an error is stopped. -/
def settle (statement : Statement) (store : StateStore) (output : StatementOutput) :
    Statement × StateStore × StatementOutput :=
  let (drained, told) := statement.drain output
  if told.error.isSome then
    let (stopped, released) := drained.stop store
    (stopped, released, told)
  else (drained, store, told)

/-- The rows that an event makes, and the faults of the join condition. -/
def rowsOf (statement : Statement) (event : Event) (occasion : Occasion) :
    Statement × Pairing :=
  match statement.plan.source with
  | .stream eventType _ =>
      (statement, if event.kind = eventType then ⟨[[.event event]], []⟩ else .empty)
  | .pattern _ =>
      match statement.engine with
      | none => (statement, .empty)
      | some engine =>
          let (advanced, rows) := engine.advance event
          ({ statement with engine := some advanced }, ⟨rows, []⟩)
  | .join left right outer condition =>
      ({ statement with buffers := statement.buffers.hold left right event },
        .ofEvent left right outer condition statement.buffers event (1 :: occasion))

/-- Take an event. -/
def send (statement : Statement) (store : StateStore) (event : Event) (occasion : Occasion) :
    Statement × StateStore × StatementOutput :=
  let output := StatementOutput.blank statement.id statement.plan.name
  if statement.stopped then (statement, store, output)
  else
    let (moved, made) := statement.rowsOf event occasion
    let (changed, updated, told) :=
      evaluateRows (0 :: occasion) moved store (output.addFaults made.faults) 0 made.rows
    changed.settle updated told

/-- Whether a group has been idle long enough to be dropped. -/
def isIdle (statement : Statement) (after : Int) (group : OpenGroup) : Bool :=
  after ≤ statement.now - group.lastUpdate

/-- Drop a group with its rows and states. -/
def dropGroup (statement : Statement) (store : StateStore) (key : GroupKey) :
    Statement × StateStore :=
  ({ statement with
      groups := statement.groups.filter fun group => !group.key.same key
      window := statement.window.filter fun row => !row.group.same key },
    (store.releaseGroup statement.id key).1)

/-- Drop several groups. -/
def dropGroups (statement : Statement) (store : StateStore) (keys : List GroupKey) :
    Statement × StateStore :=
  keys.foldl (fun (held, states) key => dropGroup held states key) (statement, store)

/-- The keys of the groups that have been idle long enough to be dropped. -/
def idleKeys (statement : Statement) (after : Int) : List GroupKey :=
  (statement.groups.filter (statement.isIdle after)).map OpenGroup.key

/-- Drop the groups that have been idle too long, if it is time to search for them. -/
def reclaim (statement : Statement) (store : StateStore) : Statement × StateStore :=
  match statement.reclaimAfter with
  | none => (statement, store)
  | some after =>
      if statement.plan.isGrouped &&
          statement.reclaimEvery ≤ statement.now - statement.lastReclaim then
        dropGroups { statement with lastReclaim := statement.now } store (statement.idleKeys after)
      else (statement, store)

/-- The matches that a point of time completes. -/
def matchesAt (statement : Statement) (now : Int) : Statement × List Row :=
  match statement.engine with
  | none => (statement, [])
  | some engine =>
      let (advanced, rows) := engine.advanceTime now
      ({ statement with engine := some advanced }, rows)

/-- Take a point of time, which is not before the last one. -/
def advanceTime (statement : Statement) (store : StateStore) (now : Int) (occasion : Occasion) :
    Statement × StateStore × StatementOutput :=
  let output := StatementOutput.blank statement.id statement.plan.name
  if statement.stopped || now < statement.now then (statement, store, output)
  else
    let (moved, rows) := { statement with now }.matchesAt now
    let (changed, updated, told) := evaluateRows (0 :: occasion) moved store output 0 rows
    let (settled, released, final) := changed.settle updated told
    if settled.stopped then (settled, released, final)
    else
      let (reclaimed, left) := settled.reclaim released
      (reclaimed, left, final)

end Statement

end EventQuery
