import EventQuery.Proofs.Processor.Beside

namespace EventQuery

/-!
# Isolation of statements

What is told of a statement does not depend on the other statements, whether they run, stop with an
error, are destroyed or are refused.  A run is compared with the one in which no other statement is
created or destroyed.  The statement may have another number there.  Functions that create states are
told this number, so the wording of their reports can be another one.
-/

/-- Whether all functions of a catalog take two statements alike. -/
def AggregateCatalog.Relabels (catalog : AggregateCatalog) (rename : String → String)
    (first second : StatementId) : Prop :=
  ∀ call handler, catalog.handle call = .ok handler → handler.Relabels rename first second

/-- A function takes a statement like itself. -/
theorem AggregateHandler.relabels_self
    (handler : AggregateHandler)
    (id : StatementId) :
    handler.Relabels (fun report => report) id id := by
  intro occasion group
  cases handler.create occasion id group <;> rfl

namespace StatementOutput

theorem relabel_self
    (output : StatementOutput) :
    output.relabel output.statement (fun report => report) = output := by
  rcases output with ⟨statement, name, rows, faults, error⟩
  rcases error with _ | error
  · rfl
  · cases error <;> rfl

end StatementOutput

namespace Processor

/-- What is left of a call when there are no other statements, and this one has a new number. -/
def Call.alone (id number : StatementId) : Call → Option Call
  | .create _ => none
  | .destroy gone => if gone = id then some (.destroy number) else none
  | .send event => some (.send event)
  | .advanceTime now => some (.advanceTime now)

/-- The time after a call. -/
def Call.timeAfter (now : Int) : Call → Int
  | .create _ => now
  | .destroy _ => now
  | .send _ => now
  | .advanceTime later => if later < now then now else later

/-- Whether two processors differ in their statements only, and in how long they have run. -/
def SameStage (first second : Processor) : Prop :=
  second =
    { first with
        store := second.store
        statements := second.statements
        nextId := second.nextId
        turn := second.turn }

section Stages

variable {first second : Processor}

/-- A call changes the time at most, apart from statements. -/
theorem sameStage_perform
    (processor : Processor)
    (call : Call) :
    SameStage { processor with now := call.timeAfter processor.now } (processor.perform call) := by
  cases call with
  | create spec =>
      rw [perform, create]
      split
      next => rfl
      next =>
          dsimp only
          split <;> rfl
  | destroy id =>
      rw [perform, destroy]
      split <;> rfl
  | send event => rfl
  | advanceTime now =>
      rw [perform, advanceTime, Call.timeAfter]
      split <;> rfl

/-- A call that is not made in the other run leaves the stage when it leaves the time. -/
theorem SameStage.perform_left
    (same : SameStage first second)
    {call : Call}
    (unheard : call.isHeard = false) :
    SameStage (first.perform call) second := by
  have isTime : call.timeAfter first.now = first.now := by
    cases call with
    | create | destroy => rfl
    | send | advanceTime => cases unheard
  have stage := sameStage_perform first call
  rw [isTime] at stage
  rw [SameStage, stage, same]

theorem SameStage.perform
    (same : SameStage first second)
    (call : Call) :
    SameStage (first.perform call) (second.perform call) := by
  have now : second.now = first.now := by rw [same]
  rw [SameStage, sameStage_perform second call, sameStage_perform first call, now, same]

/-- Without statements, calls that go to all statements change the time and the turn only. -/
theorem perform_bare
    {processor : Processor}
    (bare : processor.statements = [])
    {call : Call}
    (heard : call.isHeard = true) :
    (processor.perform call).statements = [] ∧
      (processor.perform call).store = processor.store ∧
      (processor.perform call).nextId = processor.nextId := by
  cases call with
  | create | destroy => cases heard
  | send event =>
      rw [Processor.perform, send, runAll, bare]
      exact ⟨rfl, rfl, rfl⟩
  | advanceTime now =>
      rw [Processor.perform, advanceTime]
      split
      next => exact ⟨bare, rfl, rfl⟩
      next =>
          rw [runAll]
          dsimp only
          rw [bare]
          exact ⟨rfl, rfl, rfl⟩

/-- Without the calls for statements, a run comes to the same stage with no statement. -/
theorem performAll_heard
    (same : SameStage first second)
    (bare : second.statements = [])
    (calls : List Call) :
    SameStage (first.performAll calls) (second.performAll (calls.filter Call.isHeard)) ∧
      (second.performAll (calls.filter Call.isHeard)).statements = [] ∧
      (second.performAll (calls.filter Call.isHeard)).store = second.store ∧
      (second.performAll (calls.filter Call.isHeard)).nextId = second.nextId := by
  induction calls generalizing first second with
  | nil => exact ⟨same, bare, rfl, rfl⟩
  | cons call rest inductionHypothesis =>
      cases heard : call.isHeard with
      | false =>
          rw [List.filter_cons_of_neg (by rw [heard]; exact Bool.false_ne_true)]
          exact inductionHypothesis (same.perform_left heard) bare
      | true =>
          obtain ⟨stillBare, sameStore, sameNext⟩ := perform_bare bare heard
          rw [List.filter_cons_of_pos heard, ← sameStore, ← sameNext]
          exact inductionHypothesis (same.perform call) stillBare

end Stages

section Creating

variable {processor : Processor} {spec : StatementSpec} {plan : Plan} {left : StateStore}

theorem create_eq_ok
    {statement : Statement}
    (planned : Plan.ofSpec processor.schema processor.catalog spec = .ok plan)
    (activating :
      Statement.activate processor.nextId plan processor.store processor.settings
        processor.patience processor.now = (left, .ok statement)) :
    processor.create spec =
      ({ processor with
          nextId := processor.nextId + 1
          store := left
          statements := processor.statements ++ [statement] }, .ok processor.nextId) := by
  simp only [create, planned, activating]

theorem create_eq_error
    {error : ActivationError}
    (planned : Plan.ofSpec processor.schema processor.catalog spec = .ok plan)
    (activating :
      Statement.activate processor.nextId plan processor.store processor.settings
        processor.patience processor.now = (left, .error error)) :
    processor.create spec =
      ({ processor with nextId := processor.nextId + 1, store := left }, .error error) := by
  simp only [create, planned, activating]

/-- A statement that has been created is there under its number. -/
theorem find?_create
    {journal : List StoreCall}
    {statement : Statement}
    (agrees : (processor.scene journal).Agrees)
    (planned : Plan.ofSpec processor.schema processor.catalog spec = .ok plan)
    (activating :
      Statement.activate processor.nextId plan processor.store processor.settings
        processor.patience processor.now = (left, .ok statement)) :
    (processor.create spec).1.find? processor.nextId = some statement := by
  have after := agrees_perform agrees (.create spec)
  have member : statement ∈ (processor.create spec).1.statements := by
    rw [create_eq_ok planned activating]
    exact List.mem_append_right _ (List.mem_singleton_self statement)
  obtain ⟨groups, rfl⟩ := Statement.activate_eq_ok activating
  exact find?_of_mem after.distinct member

end Creating

/--
Whether two statements of a plan are twins under two numbers.  Where points of time complete matches,
all groups are looked at.
-/
structure AreTwins (plan : Plan) (visible : GroupKey → Prop) (id number : StatementId)
    (statement : Statement) (held : StateStore) (twin : Statement) (other : StateStore) : Prop where
  plan : statement.plan = plan
  id : statement.id = id
  number : twin.id = number
  sourced : (∀ key, visible key) ∨ statement.engine = none
  twin : statement.Twin visible held twin other

theorem AreTwins.symm
    {plan : Plan}
    {visible : GroupKey → Prop}
    {id number : StatementId}
    {statement twin : Statement}
    {held other : StateStore}
    (are : AreTwins plan visible id number statement held twin other) :
    AreTwins plan visible number id twin other statement held where
  plan := are.twin.plan.trans are.plan
  id := are.number
  number := are.id
  sourced := are.sourced.imp_right fun absent => by
    rw [are.twin.same]
    exact absent
  twin := are.twin.symm

theorem isLocal_areTwins
    (plan : Plan)
    (visible : GroupKey → Prop)
    (id number : StatementId) :
    IsLocal (AreTwins plan visible id number) := by
  intro statement held left twin other otherLeft are sound same otherSound otherSame
  exact { are with twin := are.twin.of_sameOf sound otherSound same otherSame }

namespace Beside

variable {plan : Plan} {visible : GroupKey → Prop} {first second : Processor}
  {id number : StatementId} {rename : String → String}

theorem swap
    (beside : Beside (AreTwins plan visible id number) first id second number) :
    Beside (AreTwins plan visible number id) second number first id :=
  { beside.symm with
    related := beside.symm.related.imp_right fun ⟨twin, statement, otherFound, found, are⟩ =>
      ⟨twin, statement, otherFound, found, are.symm⟩ }

/-- Twins tell the same of an event that both of them take. -/
theorem send
    (beside : Beside (AreTwins plan visible id number) first id second number)
    (relabels : plan.Relabels rename id number)
    (event : Event)
    (areVisible : ∀ statement : Statement, statement.plan = plan → ∀ occasion,
      ∀ row ∈ (statement.rowsOf event occasion).2.rows, ∀ occasion key,
        plan.select? row occasion = .ok (some key) → visible key) :
    (second.send event).2.filter (·.statement == number) =
        ((first.send event).2.filter (·.statement == id)).map (·.relabel number rename) ∧
      Beside (AreTwins plan visible id number) (first.send event).1 id (second.send event).1
        number := by
  refine beside.runAll (isLocal_areTwins plan visible id number) (isTurn_send event first.turn)
    (isTurn_send event second.turn) fun {statement held twin other} are => ?_
  obtain ⟨rfl, rfl, rfl, sourced, areTwins⟩ := are
  obtain ⟨told, stillTwins⟩ := areTwins.send relabels event [statement.id, first.turn]
    [twin.id, second.turn] (areVisible statement rfl _)
  have same := (statement.moves_send held event [statement.id, first.turn]).same
  have otherSame := (twin.moves_send other event [twin.id, second.turn]).same
  exact ⟨told, same.2, same.1, otherSame.1,
    sourced.imp_right fun absent => Statement.engine_send absent _ _ _, stillTwins⟩

/-- Twins tell the same of a point of time. -/
theorem advanceTime
    (beside : Beside (AreTwins plan visible id number) first id second number)
    (relabels : plan.Relabels rename id number)
    (now : Int) :
    (second.advanceTime now).2.filter (·.statement == number) =
        ((first.advanceTime now).2.filter (·.statement == id)).map (·.relabel number rename) ∧
      Beside (AreTwins plan visible id number) (first.advanceTime now).1 id
        (second.advanceTime now).1 number := by
  rw [Processor.advanceTime, Processor.advanceTime, beside.now]
  split
  next => exact ⟨rfl, beside⟩
  next =>
      have later : Beside (AreTwins plan visible id number) { first with now } id
          { second with now } number :=
        { beside with now := rfl }
      refine later.runAll (isLocal_areTwins plan visible id number)
        (isTurn_advanceTime now first.turn) (isTurn_advanceTime now second.turn)
        fun {statement held twin other} are => ?_
      obtain ⟨rfl, rfl, rfl, sourced, areTwins⟩ := are
      have areVisible : ∀ row ∈ ({ statement with now }.matchesAt now).2, ∀ occasion key,
          statement.plan.select? row occasion = .ok (some key) → visible key := by
        intro row completed _ key _
        rcases sourced with all | absent
        · exact all key
        · rw [Statement.matchesAt, absent] at completed
          cases completed
      obtain ⟨told, stillTwins⟩ := areTwins.advanceTime relabels now [statement.id, first.turn]
        [twin.id, second.turn] areVisible
      have same := (statement.moves_advanceTime held now [statement.id, first.turn]).same
      have otherSame := (twin.moves_advanceTime other now [twin.id, second.turn]).same
      exact ⟨told, same.2, same.1, otherSame.1,
        sourced.imp_right fun absent => Statement.engine_advanceTime absent _ _ _, stillTwins⟩

/--
A statement that is created at the same stage of two processors becomes a pair of twins, or is
refused for the same reason.
-/
theorem of_create
    {journal otherJournal : List StoreCall}
    {spec : StatementSpec}
    (agrees : (first.scene journal).Agrees)
    (otherAgrees : (second.scene otherJournal).Agrees)
    (same : SameStage first second)
    (planned : Plan.ofSpec first.schema first.catalog spec = .ok plan)
    (relabels : plan.Relabels rename first.nextId second.nextId)
    (sourced : (∀ key, visible key) ∨ ∀ pattern, plan.source ≠ .pattern pattern) :
    ((first.create spec).2 = .ok first.nextId ∧ (second.create spec).2 = .ok second.nextId ∧
      Beside (AreTwins plan visible first.nextId second.nextId) (first.create spec).1 first.nextId
        (second.create spec).1 second.nextId) ∨
    ∃ error, (first.create spec).2 = .error error ∧
      (second.create spec).2 = .error (error.relabel rename) := by
  have otherPlanned : Plan.ofSpec second.schema second.catalog spec = .ok plan := by
    rw [same]
    exact planned
  have otherSettings : second.settings = first.settings := by rw [same]
  have otherPatience : second.patience = first.patience := by rw [same]
  have otherNow : second.now = first.now := by rw [same]
  obtain ⟨left, statement, otherLeft, twin, activating, otherActivating, areTwins⟩ |
    ⟨error, left, otherLeft, activating, otherActivating⟩ :=
    Statement.Twin.activate agrees.sound otherAgrees.sound
      (agrees.lookup_of_unused (Nat.le_refl _)) (otherAgrees.lookup_of_unused (Nat.le_refl _))
      relabels first.settings first.patience first.now
  · rw [← otherSettings, ← otherPatience, ← otherNow] at otherActivating
    have found := find?_create agrees planned activating
    have otherFound := find?_create otherAgrees otherPlanned otherActivating
    have after := agrees_perform agrees (.create spec)
    have otherAfter := agrees_perform otherAgrees (.create spec)
    rw [Processor.perform] at after otherAfter
    rw [create_eq_ok planned activating] at found after ⊢
    rw [create_eq_ok otherPlanned otherActivating] at otherFound otherAfter ⊢
    obtain ⟨groups, rfl⟩ := Statement.activate_eq_ok activating
    obtain ⟨otherGroups, rfl⟩ := Statement.activate_eq_ok otherActivating
    exact .inl ⟨rfl, rfl, ⟨_, after⟩, ⟨_, otherAfter⟩, Nat.lt_succ_self _, Nat.lt_succ_self _,
      otherNow, .inr ⟨_, _, found, otherFound, rfl, rfl, rfl,
        sourced.imp_right (Statement.engine_idle first.nextId),
        areTwins.mono (fun _ _ => trivial) (List.forall_mem_nil _)⟩⟩
  · rw [← otherSettings, ← otherPatience, ← otherNow] at otherActivating
    rw [create_eq_error planned activating, create_eq_error otherPlanned otherActivating]
    exact .inr ⟨error, rfl, rfl⟩

/-- What is told of a statement does not depend on the calls for other statements. -/
theorem tellings_alone
    (beside : Beside (AreTwins plan (fun _ => True) id number) first id second number)
    (relabels : plan.Relabels rename id number)
    (calls : List Call) :
    second.tellings number Call.isHeard (calls.filterMap (Call.alone id number)) =
      (first.tellings id Call.isHeard calls).map (List.map (·.relabel number rename)) := by
  have isLocal := isLocal_areTwins plan (fun _ => True) id number
  induction calls generalizing first second with
  | nil => rfl
  | cons call rest inductionHypothesis =>
      cases call with
      | create spec => exact inductionHypothesis (beside.create isLocal spec)
      | destroy gone =>
          by_cases isOwn : gone = id
          · subst isOwn
            rw [List.filterMap_cons_some (by rw [Call.alone, if_pos rfl])]
            exact inductionHypothesis beside.destroy
          · rw [List.filterMap_cons_none (by rw [Call.alone, if_neg isOwn])]
            exact inductionHypothesis (beside.destroyOther isLocal (Ne.symm isOwn))
      | send event =>
          obtain ⟨told, stillBeside⟩ :=
            beside.send relabels event fun _ _ _ _ _ _ _ _ => trivial
          exact congrArg₂ List.cons told (inductionHypothesis stillBeside)
      | advanceTime now =>
          obtain ⟨told, stillBeside⟩ := beside.advanceTime relabels now
          exact congrArg₂ List.cons told (inductionHypothesis stillBeside)

end Beside

section Isolated

variable {schema : Schema} {catalog : AggregateCatalog} {settings : Settings} {patience : Nat}
  {first second : Processor} {spec : StatementSpec} {id number : StatementId}
  {rename : String → String}

theorem supply_performAll
    (processor : Processor)
    (calls : List Call) :
    (processor.performAll calls).schema = processor.schema ∧
      (processor.performAll calls).catalog = processor.catalog := by
  induction calls generalizing processor with
  | nil => exact ⟨rfl, rfl⟩
  | cons call rest inductionHypothesis =>
      obtain ⟨sameSchema, sameCatalog⟩ := inductionHypothesis (processor.perform call)
      have stage := sameStage_perform processor call
      exact ⟨sameSchema.trans (by rw [stage]), sameCatalog.trans (by rw [stage])⟩

/-- A statement that is created has a plan and the next number. -/
theorem planned_of_create
    (created : (first.create spec).2 = .ok id) :
    (∃ plan, Plan.ofSpec first.schema first.catalog spec = .ok plan) ∧ first.nextId = id := by
  rcases planned : Plan.ofSpec first.schema first.catalog spec with error | plan
  · simp [create, planned] at created
  · rcases activating : Statement.activate first.nextId plan first.store first.settings
      first.patience first.now with ⟨left, error | statement⟩
    · simp [create_eq_error planned activating] at created
    · rw [create_eq_ok planned activating] at created
      exact ⟨⟨plan, rfl⟩, Except.ok.inj created⟩

/-- From the same stage on, the same is told of a statement with other statements and without. -/
theorem tellings_of_create
    {journal otherJournal : List StoreCall}
    (agrees : (first.scene journal).Agrees)
    (otherAgrees : (second.scene otherJournal).Agrees)
    (same : SameStage first second)
    (isNumber : second.nextId = number)
    (deterministic : first.schema.Deterministic)
    (supplied : first.catalog.Deterministic)
    (relabels : first.catalog.Relabels rename id number)
    (created : (first.create spec).2 = .ok id)
    (calls : List Call) :
    (second.create spec).2 = .ok number ∧
      (second.create spec).1.tellings number Call.isHeard
          (calls.filterMap (Call.alone id number)) =
        ((first.create spec).1.tellings id Call.isHeard calls).map
          (List.map (·.relabel number rename)) := by
  obtain ⟨⟨plan, planned⟩, rfl⟩ := planned_of_create created
  subst isNumber
  have planRelabels : plan.Relabels rename first.nextId second.nextId := {
    steady := Plan.steady_ofSpec deterministic supplied planned
    handlers := fun aggregate member => by
      obtain ⟨call, isHandler⟩ := Plan.handle_of_ofSpec planned aggregate member
      exact relabels call _ isHandler }
  obtain ⟨_, otherCreated, beside⟩ | ⟨error, failed, _⟩ :=
    Beside.of_create agrees otherAgrees same planned planRelabels (.inl fun _ => trivial)
  · exact ⟨otherCreated, beside.tellings_alone planRelabels calls⟩
  · cases failed.symm.trans created

/-- A processor without statements and states is in agreement. -/
theorem agrees_bare
    (bare : first.statements = [])
    (empty : first.store = .empty) :
    (first.scene []).Agrees := by
  rw [scene, bare, empty]
  exact { Scene.Agrees.empty with below := List.forall_mem_nil _ }

/-- A run without other statements tells the same of the only one, whatever its number is. -/
theorem isolated_under
    {before : List Call}
    (deterministic : schema.Deterministic)
    (supplied : catalog.Deterministic)
    (relabels : catalog.Relabels rename id number)
    (created : (((new schema catalog settings patience).performAll before).create spec).2 = .ok id)
    (after : List Call) :
    let processor := ((new schema catalog settings patience).performAll before).create spec
    let alone := ({ new schema catalog settings patience with nextId := number }.performAll
      (before.filter Call.isHeard)).create spec
    alone.2 = .ok number ∧
      alone.1.tellings number Call.isHeard (after.filterMap (Call.alone id number)) =
        (processor.1.tellings id Call.isHeard after).map (List.map (·.relabel number rename)) := by
  have stage : SameStage (new schema catalog settings patience)
      { new schema catalog settings patience with nextId := number } := rfl
  obtain ⟨same, bare, sameStore, sameNext⟩ := performAll_heard stage rfl before
  obtain ⟨sameSchema, sameCatalog⟩ :=
    supply_performAll (new schema catalog settings patience) before
  exact tellings_of_create (agrees_sceneAfter schema catalog settings patience before)
    (agrees_bare bare sameStore) same sameNext (sameSchema ▸ deterministic)
    (sameCatalog ▸ supplied) (sameCatalog ▸ relabels) created after

/-- What is told of a statement tells its number already. -/
theorem relabel_own
    (outputs : List StatementOutput) :
    (outputs.filter (·.statement == id)).map (·.relabel id fun report => report) =
      outputs.filter (·.statement == id) := by
  refine (List.map_congr_left fun output member => ?_).trans (List.map_id _)
  obtain rfl : output.statement = id := eq_of_beq (List.mem_filter.mp member).2
  exact output.relabel_self

theorem relabel_tellings
    (processor : Processor)
    (isKind : Call → Bool)
    (calls : List Call) :
    (processor.tellings id isKind calls).map (List.map (·.relabel id fun report => report)) =
      processor.tellings id isKind calls := by
  induction calls generalizing processor with
  | nil => rfl
  | cons call rest inductionHypothesis =>
      have later := inductionHypothesis (processor.perform call)
      rw [tellings]
      split
      next => rw [List.map_cons, relabel_own, later]
      next => exact later

end Isolated

/--
Statements are isolated.  Whatever else has been created, refused, stopped or destroyed before and
after the creation of a statement, the same is told of it for each event and point of time as in the
run without all other statements.  In that run it is the first one, so it is renumbered: either all
numbers begin with the one that it had, and then nothing else differs; or they begin with one, and
then the reports of failed creations differ as far as the functions put the number into words.
-/
theorem statement_isolated
    (schema : Schema)
    (catalog : AggregateCatalog)
    (settings : Settings)
    (patience : Nat)
    (before after : List Call)
    {spec : StatementSpec}
    {id : StatementId}
    (deterministic : schema.Deterministic)
    (supplied : catalog.Deterministic)
    (created : (((new schema catalog settings patience).performAll before).create spec).2 = .ok id) :
    let processor := (((new schema catalog settings patience).performAll before).create spec).1
    let told := processor.tellings id Call.isHeard after
    let numbered := ({ new schema catalog settings patience with nextId := id }.performAll
      (before.filter Call.isHeard)).create spec
    let alone := ((new schema catalog settings patience).performAll
      (before.filter Call.isHeard)).create spec
    (numbered.2 = .ok id ∧
      numbered.1.tellings id Call.isHeard (after.filterMap (Call.alone id id)) = told) ∧
    ∀ rename, catalog.Relabels rename id 1 →
      alone.2 = .ok 1 ∧
        alone.1.tellings 1 Call.isHeard (after.filterMap (Call.alone id 1)) =
          told.map (List.map (·.relabel 1 rename)) := by
  intro processor told numbered alone
  obtain ⟨isNumber, same⟩ :=
    isolated_under deterministic supplied (fun _ handler _ => handler.relabels_self id) created after
  rw [relabel_tellings] at same
  exact ⟨⟨isNumber, same⟩, fun rename relabels =>
    isolated_under deterministic supplied relabels created after⟩

/-- A function of which no state can be created. -/
def refusing : AggregateSupplier where
  names := ["refused"]
  handle := fun call =>
    .ok {
      function := call.function
      key := .own call.position call.function
      create := fun _ statement _ => .error ("refused to " ++ toString statement)
      read := fun _ => .null
      returns := .int }

/-- The statement that is stopped by its first tick. -/
def refusedByPlace : StatementSpec :=
  { countByPlace none with select := [.column (.chain [.call "refused" [.wildcard] none]) none] }

theorem deterministic_refusing : (AggregateCatalog.standard.add refusing).Deterministic := by
  intro call handler steady outcome
  rcases AggregateCatalog.handle_add outcome with refused | standard
  · cases refused
    exact ⟨fun _ _ _ _ => rfl, nofun⟩
  · exact AggregateCatalog.deterministic_standard call handler steady standard

theorem relabels_refusing :
    (AggregateCatalog.standard.add refusing).Relabels (fun _ => "refused to 1") 2 1 := by
  intro call handler outcome
  rcases AggregateCatalog.handle_add outcome with refused | standard
  · cases refused
    exact fun _ _ => rfl
  · obtain ⟨state, creates, _⟩ := AggregateCatalog.creates_standard standard
    exact creates.relabels _ 2 1

theorem deterministic_tickSchema : tickSchema.Deterministic :=
  Schema.deterministic_empty.addShape nofun

/--
One statement that is stopped by an error and another one that is created later and destroyed leave a
count of ticks alone.
-/
theorem statement_isolated_countByPlace :
    let catalog := AggregateCatalog.standard.add refusing
    let before : List Call := [.create refusedByPlace, .send (tickAt 0 "here")]
    let after : List Call :=
      [.send (tickAt 1 "here"), .create refusedByPlace, .send (tickAt 2 "here"), .destroy 3,
        .send (tickAt 3 "there"), .destroy 2]
    let created :=
      ((new tickSchema catalog .standard 1).performAll before).create (countByPlace none)
    let alone := ((new tickSchema catalog .standard 1).performAll
      [.send (tickAt 0 "here")]).create (countByPlace none)
    let told := created.1.tellings 2 Call.isHeard after
    created.2 = .ok 2 ∧ told.map List.length = [1, 1, 1] ∧
      alone.1.tellings 1 Call.isHeard
        [.send (tickAt 1 "here"), .send (tickAt 2 "here"), .send (tickAt 3 "there"), .destroy 1] =
          told.map (List.map (·.relabel 1 fun _ => "refused to 1")) := by
  intro catalog before after created alone told
  have isCreated : created.2 = .ok 2 := by decide +kernel
  refine ⟨isCreated, by decide +kernel, ?_⟩
  exact ((statement_isolated tickSchema catalog .standard 1 before after deterministic_tickSchema
    deterministic_refusing isCreated).2 _ relabels_refusing).2

end Processor

end EventQuery
