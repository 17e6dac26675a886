import EventQuery.Statement.Run

namespace EventQuery

/-!
# Processors

A processor runs statements over one schema.  Each event and each point of time goes to all of them
in the order in which they were created, and the outputs that tell something are collected.
-/

/-- Running statements with what they share. -/
structure Processor where
  schema : Schema
  catalog : AggregateCatalog
  settings : Settings
  /-- The most tasks that the engine of a pattern performs for one event or point of time. -/
  patience : Nat
  store : StateStore
  /-- The statements in order of creation. -/
  statements : List Statement
  nextId : StatementId
  now : Int
  /-- The number of events and points of time so far. -/
  turn : Nat

namespace Processor

/-- A processor without statements, at time zero. -/
def new (schema : Schema) (catalog : AggregateCatalog) (settings : Settings) (patience : Nat) :
    Processor where
  schema := schema
  catalog := catalog
  settings := settings
  patience := patience
  store := .empty
  statements := []
  nextId := 1
  now := 0
  turn := 0

/-- The statement of a number. -/
def find? (processor : Processor) (id : StatementId) : Option Statement :=
  processor.statements.find? fun statement => statement.id == id

/--
Create a statement.  One that cannot be planned changes nothing; one that cannot be activated leaves
no state behind and uses up its number.
-/
def create (processor : Processor) (spec : StatementSpec) :
    Processor × Except ActivationError StatementId :=
  match Plan.ofSpec processor.schema processor.catalog spec with
  | .error error => (processor, .error error)
  | .ok plan =>
      let id := processor.nextId
      match Statement.activate id plan processor.store processor.settings processor.patience
        processor.now with
      | (store, .error error) => ({ processor with nextId := id + 1, store }, .error error)
      | (store, .ok statement) =>
          ({ processor with
              nextId := id + 1
              store
              statements := processor.statements ++ [statement] }, .ok id)

/-- Stop a statement and forget it.  Tells whether there was one. -/
def destroy (processor : Processor) (id : StatementId) : Processor × Bool :=
  match processor.find? id with
  | none => (processor, false)
  | some statement =>
      let (_, store) := statement.stop processor.store
      ({ processor with
          store := (store.releaseStatement id).1
          statements := processor.statements.filter fun statement => statement.id != id }, true)

/-- The report about a statement that has been destroyed or never was. -/
def destroyedMessage (id : StatementId) : String :=
  "Statement " ++ toString id ++ " has been destroyed"

/-- Let each statement take its turn, in order. -/
def takeTurns (turn : Statement → StateStore → Statement × StateStore × StatementOutput)
    (store : StateStore) : List Statement → List Statement × StateStore × List StatementOutput
  | [] => ([], store, [])
  | statement :: rest =>
      let (changed, updated, output) := turn statement store
      let (others, last, outputs) := takeTurns turn updated rest
      (changed :: others, last, if output.isBlank then outputs else output :: outputs)

/-- Give a turn to all statements. -/
def runAll (processor : Processor)
    (turn : Statement → StateStore → Statement × StateStore × StatementOutput) :
    Processor × List StatementOutput :=
  let (statements, store, outputs) := takeTurns turn processor.store processor.statements
  ({ processor with statements, store, turn := processor.turn + 1 }, outputs)

/-- Send an event to all statements. -/
def send (processor : Processor) (event : Event) : Processor × List StatementOutput :=
  processor.runAll fun statement store =>
    statement.send store event [statement.id, processor.turn]

/-- Move the time forward.  A time before the present one is ignored. -/
def advanceTime (processor : Processor) (now : Int) : Processor × List StatementOutput :=
  if now < processor.now then (processor, [])
  else
    { processor with now }.runAll fun statement store =>
      statement.advanceTime store now [statement.id, processor.turn]

/-- The point of time at some seconds from the first moment of 1970, or the latest one. -/
def ofSeconds (seconds : Int) : Int :=
  let nanos := seconds * 1000000000
  if Word.fits nanos then nanos else Progress.lastMoment

/-- Start a pattern at the present time, apart from all statements. -/
def bindPattern (processor : Processor) (pattern : PatternExpr) : Except BindingError Engine := do
  let compiled ← CompiledPattern.compile processor.schema pattern
  return Engine.start compiled processor.settings.maxPartialMatches processor.patience processor.now

/-- The name of a statement. -/
def nameOf (processor : Processor) (id : StatementId) : Option String :=
  (processor.find? id).bind fun statement => statement.plan.name

/-- Whether a statement takes events. -/
def isActive (processor : Processor) (id : StatementId) : Bool :=
  ((processor.find? id).map fun statement => !statement.stopped).getD false

/-- The number of open groups of a statement. -/
def groupCount (processor : Processor) (id : StatementId) : Nat :=
  ((processor.find? id).map Statement.groupCount).getD 0

/-- The number of live filters and timers of the pattern of a statement. -/
def partialMatchCount (processor : Processor) (id : StatementId) : Nat :=
  ((processor.find? id).map Statement.partialMatchCount).getD 0

end Processor

end EventQuery
