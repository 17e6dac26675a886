import EventQuery.Proofs.Statement.Moves

namespace EventQuery

namespace Statement

/-!
# What rows leave alone

A row changes the open groups and the window of a statement, and nothing else of it.  What a source
has for later rows is therefore changed by events and points of time only, before their rows are run.
-/

/-- Whether a statement differs from another one in its open groups and its window only. -/
def SameFrame (next statement : Statement) : Prop :=
  next = { statement with groups := next.groups, window := next.window }

namespace SameFrame

variable {next middle statement : Statement} {store : StateStore} {occasion : Occasion}

theorem refl (statement : Statement) : SameFrame statement statement := rfl

theorem trans
    (later : SameFrame next middle)
    (earlier : SameFrame middle statement) :
    SameFrame next statement := by
  rw [SameFrame, later, earlier]

theorem plan (same : SameFrame next statement) : next.plan = statement.plan := by
  rw [same]

theorem engine (same : SameFrame next statement) : next.engine = statement.engine := by
  rw [same]

theorem buffers (same : SameFrame next statement) : next.buffers = statement.buffers := by
  rw [same]

/-- Opening a group adds a group at most. -/
theorem openGroup
    (statement : Statement)
    (store : StateStore)
    (key : GroupKey)
    (occasion : Occasion) :
    SameFrame (statement.openGroup store key occasion).1 statement := by
  rw [Statement.openGroup]
  split
  next => exact .refl statement
  next => split <;> rfl

theorem evaluateRow
    (statement : Statement)
    (store : StateStore)
    (row : Row)
    (occasion : Occasion) :
    SameFrame (statement.evaluateRow store row occasion).1 statement := by
  rw [Statement.evaluateRow]
  split
  next => exact .refl statement
  next => exact .refl statement
  next key _ =>
      split
      next => exact .refl statement
      next =>
          have opens := openGroup statement store key (5 :: occasion)
          rcases opening : statement.openGroup store key (5 :: occasion) with
            ⟨opened, obtained, error | handles⟩
          · rw [opening] at opens
            exact opens
          · rw [opening] at opens
            refine trans ?_ opens
            dsimp only
            rw [aggregateRow_fst]
            rfl

theorem evaluateRows
    (statement : Statement)
    (store : StateStore)
    (output : StatementOutput)
    (position : Nat)
    (rows : List Row) :
    SameFrame (Statement.evaluateRows occasion statement store output position rows).1
      statement := by
  induction rows generalizing statement store output position with
  | nil => exact .refl statement
  | cons row rest inductionHypothesis =>
      have first := evaluateRow statement store row (position :: occasion)
      rw [Statement.evaluateRows]
      split
      next evaluating =>
          rw [evaluating] at first
          exact first
      next evaluating =>
          rw [evaluating] at first
          exact (inductionHypothesis _ _ _ _).trans first

/-- Dropping groups leaves what the source has, too. -/
theorem dropGroups
    (statement : Statement)
    (store : StateStore)
    (keys : List GroupKey) :
    SameFrame (statement.dropGroups store keys).1 statement := by
  induction keys generalizing statement store with
  | nil => exact .refl statement
  | cons key rest inductionHypothesis =>
      exact (inductionHypothesis (statement.dropGroup store key).1 _).trans rfl

theorem reclaim
    (statement : Statement)
    (store : StateStore) :
    ∃ lastReclaim, SameFrame (statement.reclaim store).1 { statement with lastReclaim } := by
  rw [Statement.reclaim]
  split
  next => exact ⟨statement.lastReclaim, .refl statement⟩
  next =>
      split
      next => exact ⟨statement.now, dropGroups _ _ _⟩
      next => exact ⟨statement.lastReclaim, .refl statement⟩

end SameFrame

/-- A statement that has just been activated is idle, but for a group that may be open. -/
theorem activate_eq_ok
    {id : StatementId}
    {plan : Plan}
    {store left : StateStore}
    {settings : Settings}
    {patience : Nat}
    {now : Int}
    {statement : Statement}
    (outcome : activate id plan store settings patience now = (left, .ok statement)) :
    ∃ groups, statement = { idle id plan settings patience now with groups } := by
  rw [activate] at outcome
  split at outcome
  next =>
      cases outcome
      exact ⟨[], rfl⟩
  next =>
      split at outcome
      next => cases outcome
      next opened obtained handles opening =>
          cases outcome
          exact ⟨_, (eq_of_openGroup_ok rfl opening).1⟩

/-- Only a statement with a pattern has an engine, from the beginning. -/
theorem engine_idle
    (id : StatementId)
    {plan : Plan}
    {settings : Settings}
    {patience : Nat}
    {now : Int}
    (noPattern : ∀ pattern, plan.source ≠ .pattern pattern) :
    (idle id plan settings patience now).engine = none := by
  rw [idle]
  dsimp only
  split
  next pattern isPattern => exact absurd isPattern (noPattern pattern)
  next => rfl

theorem drain_of_no_engine
    {statement : Statement}
    (absent : statement.engine = none)
    (output : StatementOutput) :
    statement.drain output = (statement, output) := by
  rw [drain, absent]

theorem engine_settle
    {statement : Statement}
    (absent : statement.engine = none)
    (store : StateStore)
    (output : StatementOutput) :
    (statement.settle store output).1.engine = none := by
  rw [settle, drain_of_no_engine absent]
  dsimp only
  split
  next =>
      rw [stop]
      split
      next => exact absent
      next =>
          dsimp only
          rw [absent]
          rfl
  next => exact absent

/-- A statement without a pattern takes an event and gets none. -/
theorem engine_send
    {statement : Statement}
    (absent : statement.engine = none)
    (store : StateStore)
    (event : Event)
    (occasion : Occasion) :
    (statement.send store event occasion).1.engine = none := by
  have moved : (statement.rowsOf event occasion).1.engine = none := by
    rw [rowsOf]
    split
    next => exact absent
    next =>
        rw [absent]
        exact absent
    next => exact absent
  rw [send]
  dsimp only
  split
  next => exact absent
  next => exact engine_settle ((SameFrame.evaluateRows _ _ _ _ _).engine.trans moved) _ _

theorem engine_reclaim
    (statement : Statement)
    (store : StateStore) :
    (statement.reclaim store).1.engine = statement.engine := by
  obtain ⟨_, same⟩ := SameFrame.reclaim statement store
  exact same.engine

/-- A statement without a pattern takes a point of time and gets none. -/
theorem engine_advanceTime
    {statement : Statement}
    (absent : statement.engine = none)
    (store : StateStore)
    (now : Int)
    (occasion : Occasion) :
    (statement.advanceTime store now occasion).1.engine = none := by
  have matched : ({ statement with now }.matchesAt now).1.engine = none := by
    rw [matchesAt]
    dsimp only
    rw [absent]
  rw [advanceTime]
  dsimp only
  split
  next => exact absent
  next =>
      split
      next => exact engine_settle ((SameFrame.evaluateRows _ _ _ _ _).engine.trans matched) _ _
      next =>
          rw [engine_reclaim]
          exact engine_settle ((SameFrame.evaluateRows _ _ _ _ _).engine.trans matched) _ _

/-- After its rows a statement has what its source had before them, unless it is stopped. -/
theorem buffers_settle
    (statement : Statement)
    (store : StateStore)
    (output : StatementOutput)
    (running : (statement.settle store output).1.stopped = false) :
    (statement.settle store output).1.buffers = statement.buffers := by
  have drained : (statement.drain output).1.buffers = statement.buffers := by
    rw [drain]
    split <;> rfl
  rw [settle] at running ⊢
  dsimp only at running ⊢
  split at running
  next => cases running.symm.trans (moves_stop _ _).2.1
  next settled =>
      rw [if_neg settled]
      exact drained

theorem buffers_reclaim
    (statement : Statement)
    (store : StateStore) :
    (statement.reclaim store).1.buffers = statement.buffers := by
  obtain ⟨_, same⟩ := SameFrame.reclaim statement store
  exact same.buffers

/-- What can be joined after an event is what its source has made of it. -/
theorem buffers_send
    (statement : Statement)
    (store : StateStore)
    (event : Event)
    (occasion : Occasion)
    (running : (statement.send store event occasion).1.stopped = false) :
    (statement.send store event occasion).1.buffers =
      (statement.rowsOf event occasion).1.buffers := by
  rw [send] at running ⊢
  dsimp only at running ⊢
  split at running
  next ended => cases running.symm.trans ended
  next awake =>
      rw [if_neg awake, buffers_settle _ _ _ running, (SameFrame.evaluateRows _ _ _ _ _).buffers]

/-- A point of time leaves what can be joined. -/
theorem buffers_advanceTime
    (statement : Statement)
    (store : StateStore)
    (now : Int)
    (occasion : Occasion)
    (running : (statement.advanceTime store now occasion).1.stopped = false) :
    (statement.advanceTime store now occasion).1.buffers = statement.buffers := by
  have matched : ({ statement with now }.matchesAt now).1.buffers = statement.buffers := by
    rw [matchesAt]
    split <;> rfl
  rw [advanceTime] at running ⊢
  dsimp only at running ⊢
  split at running
  next asleep => rw [if_pos asleep]
  next awake =>
      rw [if_neg awake]
      split at running
      next ended => cases running.symm.trans ended
      next settled =>
          rw [if_neg settled, buffers_reclaim, buffers_settle _ _ _ (Bool.not_eq_true _ ▸ settled),
            (SameFrame.evaluateRows _ _ _ _ _).buffers, matched]

end Statement

end EventQuery
