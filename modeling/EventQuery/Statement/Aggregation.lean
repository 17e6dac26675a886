import EventQuery.Statement.State

namespace EventQuery

/-!
# Aggregation of rows

A row enters each state of its group once, in order, and stops at the first fault.  A row that the
window pushes out leaves exactly the states that it entered, as long as its group is open.
-/

namespace Statement

/--
The handles of all aggregations for a group.  States that are missing are created; those before a
failure stay.
-/
def obtainAll (id : StatementId) (key : GroupKey) (occasion : Occasion) (store : StateStore)
    (position : Nat) : List AggregateSlot → StateStore × Except ActivationError (List StateHandle)
  | [] => (store, .ok [])
  | aggregate :: rest =>
      match store.obtain id key aggregate.handler (position :: occasion) with
      | (obtained, .error error) => (obtained, .error error)
      | (obtained, .ok handle) =>
          match obtainAll id key occasion obtained (position + 1) rest with
          | (last, .error error) => (last, .error error)
          | (last, .ok handles) => (last, .ok (handle :: handles))

/-- The handles of a group, which is opened when it is not open. -/
def openGroup (statement : Statement) (store : StateStore) (key : GroupKey) (occasion : Occasion) :
    Statement × StateStore × Except ActivationError (List StateHandle) :=
  match statement.group? key with
  | some group => (statement, store, .ok group.handles)
  | none =>
      match obtainAll statement.id key occasion store 0 statement.plan.aggregates with
      | (obtained, .error error) => (statement, obtained, .error error)
      | (obtained, .ok handles) =>
          ({ statement with groups := statement.groups ++ [⟨key, handles, statement.now⟩] },
            obtained, .ok handles)

/-- A row enters states until a fault; the count tells how many states it has entered. -/
def enterAll (row : Row) (occasion : Occasion) (store : StateStore) (entered : Nat) :
    List StateHandle → StateStore × Nat × Option Fault
  | [] => (store, entered, none)
  | handle :: rest =>
      match store.enter handle row (entered :: occasion) with
      | (changed, none) => enterAll row occasion changed (entered + 1) rest
      | (changed, some fault) => (changed, entered, some fault)

/-- A row leaves states, whether or not there are faults; the count tells how many it has left. -/
def leaveAll (row : Row) (occasion : Occasion) (store : StateStore) (left : Nat) :
    List StateHandle → StateStore
  | [] => store
  | handle :: rest =>
      leaveAll row occasion (store.leave handle row (left :: occasion)).1 (left + 1) rest

/-- The handles of the states that a row has entered, as long as its group is open. -/
def enteredHandles (statement : Statement) (held : WindowRow) : List StateHandle :=
  match statement.group? held.group with
  | none => []
  | some group => (statement.distinctHandles group.handles).take held.entered

/-- A row pushed out of the window leaves the states that it entered. -/
def expireRow (statement : Statement) (store : StateStore) (expired : WindowRow)
    (occasion : Occasion) : StateStore :=
  leaveAll expired.row occasion store 0 (statement.enteredHandles expired)

/-- Several rows are pushed out, numbered from a position on. -/
def expireRows (statement : Statement) (occasion : Occasion) (store : StateStore) (position : Nat) :
    List WindowRow → StateStore
  | [] => store
  | expired :: rest =>
      expireRows statement occasion (statement.expireRow store expired (position :: occasion))
        (position + 1) rest

/-- A row is added to the window, if there is one, and the rows beyond its size are pushed out. -/
def slideWindow (statement : Statement) (store : StateStore) (added : WindowRow)
    (occasion : Occasion) : Statement × StateStore :=
  match statement.plan.window with
  | none => (statement, store)
  | some size =>
      let rows := statement.window ++ [added]
      let excess := rows.length - size
      ({ statement with window := rows.drop excess },
        statement.expireRows occasion store 0 (rows.take excess))

/-- The group of a key has had a row now. -/
def touchGroup (statement : Statement) (key : GroupKey) : Statement :=
  { statement with
    groups := statement.groups.map fun group =>
      if group.key.same key then { group with lastUpdate := statement.now } else group }

/-- The results of all aggregations, absent when a state is gone. -/
def readAll (store : StateStore) (aggregates : List AggregateSlot) (handles : List StateHandle) :
    Option Row :=
  (aggregates.zip handles).mapM fun (aggregate, handle) => store.read? handle aggregate.handler

end Statement

end EventQuery
