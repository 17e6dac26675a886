import EventQuery.Aggregate.Function

namespace EventQuery

/-!
# The store of aggregation states

Every live state is held under a statement, a group and a key, in tables within tables.  A state that
is asked for is created on first use.  Handles name one state for its lifetime: when the state is
released its handles are dead, and they stay so when the same place is filled again.
-/

/-- A live state. -/
structure StateCell where
  /-- The number of the state, which no other state has or had. -/
  serial : Nat
  state : AggregateState

/-- The state of the cell is replaced when the cell has a number. -/
def StateCell.replace (cell : StateCell) (serial : Nat) (state : AggregateState) : StateCell :=
  if cell.serial = serial then { cell with state } else cell

/-- The states of one group. -/
abbrev GroupStates := Table StateKey StateCell

/-- The groups of one statement. -/
abbrev StatementStates := Table GroupKey GroupStates

/-- A handle of one state. -/
structure StateHandle where
  key : StateKey
  serial : Nat
  deriving DecidableEq, Repr

/-- All live states. -/
structure StateStore where
  statements : Table StatementId StatementStates
  /-- The number of the next state. -/
  next : Nat

namespace StateStore

/-- The store without states. -/
def empty : StateStore := ⟨[], 0⟩

/-- The groups that are held for a statement. -/
def groupsOf (store : StateStore) (statement : StatementId) : StatementStates :=
  (store.statements.find? statement).getD []

/-- The states that are held for a group of a statement. -/
def statesOf (store : StateStore) (statement : StatementId) (group : GroupKey) : GroupStates :=
  ((store.groupsOf statement).find? group).getD []

/-- The state at a place. -/
def cell? (store : StateStore) (statement : StatementId) (group : GroupKey) (key : StateKey) :
    Option StateCell :=
  (store.statesOf statement group).find? key

/-- The handle of the state at a place. -/
def lookup (store : StateStore) (statement : StatementId) (group : GroupKey) (key : StateKey) :
    Option StateHandle :=
  (store.cell? statement group key).map fun cell => ⟨key, cell.serial⟩

/-- All live states of all statements. -/
def cells (store : StateStore) : List StateCell :=
  store.statements.flatMap fun (_, groups) => groups.flatMap fun (_, states) => states.map Prod.snd

/-- The state that a handle names, while it is live. -/
def get? (store : StateStore) (handle : StateHandle) : Option AggregateState :=
  (store.cells.find? fun cell => cell.serial == handle.serial).map StateCell.state

/-- Whether the state of a handle is live. -/
def isLive (store : StateStore) (handle : StateHandle) : Bool := (store.get? handle).isSome

/-- Set the states of a group, which is put in place when it is not held. -/
def setStates (store : StateStore) (statement : StatementId) (group : GroupKey)
    (states : GroupStates) : StateStore :=
  { store with
    statements := store.statements.put statement ((store.groupsOf statement).put group states) }

/-- Hold a group, without states when it has none. -/
def openGroup (store : StateStore) (statement : StatementId) (group : GroupKey) : StateStore :=
  store.setStates statement group (store.statesOf statement group)

/-- Forget a group that is held without states. -/
def discardGroup (store : StateStore) (statement : StatementId) (group : GroupKey) : StateStore :=
  match (store.groupsOf statement).find? group with
  | some [] =>
      { store with
        statements := store.statements.put statement ((store.groupsOf statement).erase group) }
  | _ => store

/-- A new state is put at a place. -/
def add (store : StateStore) (statement : StatementId) (group : GroupKey) (key : StateKey)
    (state : AggregateState) : StateStore :=
  { store.setStates statement group
      ((store.statesOf statement group).put key ⟨store.next, state⟩) with
    next := store.next + 1 }

/--
The handle of the state at a place, which is created when there is none.  The group is held while
its first state is created, and forgotten again when that fails.
-/
def obtain (store : StateStore) (statement : StatementId) (group : GroupKey)
    (handler : AggregateHandler) (occasion : Occasion) :
    StateStore × Except ActivationError StateHandle :=
  let held := store.openGroup statement group
  match held.cell? statement group handler.key with
  | some cell => (held, .ok ⟨handler.key, cell.serial⟩)
  | none =>
      match handler.create occasion statement group with
      | .ok state =>
          (held.add statement group handler.key state, .ok ⟨handler.key, held.next⟩)
      | .error report =>
          (held.discardGroup statement group, .error (.creationFailed handler.function report))

/-- Replace the state of a number. -/
def replace (store : StateStore) (serial : Nat) (state : AggregateState) : StateStore :=
  { store with
    statements := store.statements.mapContents fun groups =>
      groups.mapContents fun states => states.mapContents fun cell => cell.replace serial state }

/-- Update the state that a handle names.  Nothing becomes of a dead handle. -/
def update (store : StateStore) (handle : StateHandle)
    (change : AggregateState → AggregateState × Option Fault) : StateStore × Option Fault :=
  match store.get? handle with
  | none => (store, none)
  | some state => (store.replace handle.serial (change state).1, (change state).2)

/-- A row enters the state of a handle. -/
def enter (store : StateStore) (handle : StateHandle) (row : Row) (occasion : Occasion) :
    StateStore × Option Fault :=
  store.update handle fun state => state.enter row occasion

/-- A row leaves the state of a handle. -/
def leave (store : StateStore) (handle : StateHandle) (row : Row) (occasion : Occasion) :
    StateStore × Option Fault :=
  store.update handle fun state => state.leave row occasion

/-- The result in the state of a handle, absent when the handle is dead. -/
def read? (store : StateStore) (handle : StateHandle) (handler : AggregateHandler) :
    Option Value :=
  (store.get? handle).map handler.read

/-- The number of groups that are held for a statement. -/
def groupCount (store : StateStore) (statement : StatementId) : Nat :=
  (store.groupsOf statement).length

/-- The number of states of a statement. -/
def stateCount (store : StateStore) (statement : StatementId) : Nat :=
  ((store.groupsOf statement).flatMap fun (_, states) => states).length

/-- Release all states of one group.  Tells whether the group was held. -/
def releaseGroup (store : StateStore) (statement : StatementId) (group : GroupKey) :
    StateStore × Bool :=
  match store.statements.find? statement with
  | none => (store, false)
  | some groups =>
      ({ store with statements := store.statements.put statement (groups.erase group) },
        (groups.find? group).isSome)

/-- Release all states of one statement.  Tells how many groups were held for it. -/
def releaseStatement (store : StateStore) (statement : StatementId) : StateStore × Nat :=
  ({ store with statements := store.statements.erase statement }, store.groupCount statement)

end StateStore

/-- The wording of the outcome of reading a dead handle. -/
def StateStore.deadMessage : String := "No aggregation state for this group"

end EventQuery
