import EventQuery.Proofs.Pattern.Release
import EventQuery.Proofs.Pattern.Stepping

namespace EventQuery

namespace Engine

/-!
# What a task leaves alone

A task changes states and indexes.  The pattern, the limits, the time and the agenda are left as they
are, and so are the root and the completed matches, unless the task reports out of the pattern.
-/

/-- One engine has the pattern, the root, the matches and the limits of another. -/
structure SameStanding (before after : Engine) : Prop where
  pattern : after.pattern = before.pattern
  root : after.root = before.root
  now : after.now = before.now
  limit : after.limit = before.limit
  patience : after.patience = before.patience
  completed : after.completed = before.completed
  agenda : after.agenda = before.agenda

namespace SameStanding

variable {first second third engine : Engine} {ticket sender : Ticket} {state : PatternState}

@[refl] theorem refl
    (engine : Engine) :
    SameStanding engine engine :=
  ⟨rfl, rfl, rfl, rfl, rfl, rfl, rfl⟩

theorem trans
    (earlier : SameStanding first second)
    (later : SameStanding second third) :
    SameStanding first third where
  pattern := later.pattern.trans earlier.pattern
  root := later.root.trans earlier.root
  now := later.now.trans earlier.now
  limit := later.limit.trans earlier.limit
  patience := later.patience.trans earlier.patience
  completed := later.completed.trans earlier.completed
  agenda := later.agenda.trans earlier.agenda

section Operations

theorem create
    (engine : Engine)
    (node : Nat)
    (parent : Option Ticket)
    (bindings : Row) :
    SameStanding engine (engine.create node parent bindings).1 :=
  ⟨rfl, rfl, rfl, rfl, rfl, rfl, rfl⟩

theorem createAll
    (engine : Engine)
    (owner : Ticket)
    (bindings : Row)
    (nodes : List Nat) :
    SameStanding engine (engine.createAll owner bindings nodes).1 := by
  induction nodes generalizing engine with
  | nil => exact refl engine
  | cons node rest inductionHypothesis =>
      exact (create engine node (some owner) bindings).trans (inductionHypothesis _)

theorem update
    (engine : Engine)
    (ticket : Ticket)
    (change : Progress → Progress) :
    SameStanding engine (engine.update ticket change) :=
  ⟨rfl, rfl, rfl, rfl, rfl, rfl, rfl⟩

theorem schedule
    (engine : Engine)
    (ticket : Ticket)
    (state : PatternState)
    (deadline : Int) :
    SameStanding engine (engine.schedule ticket state deadline) :=
  ⟨rfl, rfl, rfl, rfl, rfl, rfl, rfl⟩

theorem release
    (engine : Engine)
    (tickets : List Ticket) :
    SameStanding engine (engine.release tickets) := by
  induction engine, tickets using Engine.release.induct with
  | case1 engine =>
      rw [release_nil]
  | case2 engine ticket rest gone inductionHypothesis =>
      rw [release_of_gone gone]
      exact inductionHypothesis
  | case3 engine ticket rest state states took fewer inductionHypothesis =>
      have dropped : SameStanding engine (engine.drop state states) := by
        rw [drop_frame]
        exact ⟨rfl, rfl, rfl, rfl, rfl, rfl, rfl⟩
      rw [release_of_took took]
      exact dropped.trans inductionHypothesis

theorem finish
    (engine : Engine)
    (ticket : Ticket)
    (signal : Signal) :
    SameStanding engine (engine.finish ticket signal).1 := by
  unfold Engine.finish
  split
  next => exact refl engine
  next => exact release engine _

theorem startChild
    (engine : Engine)
    (owner : Ticket)
    (child : Nat)
    (bindings : Row) :
    SameStanding engine (engine.startChild owner child bindings).1 :=
  (create engine child (some owner) bindings).trans (update _ owner _)

theorem startOperands
    (engine : Engine)
    (owner : Ticket)
    (operands : List Nat)
    (bindings : Row) :
    SameStanding engine (engine.startOperands owner operands bindings).1 :=
  (createAll engine owner bindings operands).trans (update _ owner _)

theorem test
    (engine : Engine)
    (condition : Node)
    (row : Row) :
    SameStanding engine (engine.test condition row).1 := by
  unfold Engine.test
  split <;> exact ⟨rfl, rfl, rfl, rfl, rfl, rfl, rfl⟩

theorem dropChildIf
    (engine : Engine)
    (ticket : Ticket)
    (isGone : Bool) :
    SameStanding engine (engine.dropChildIf ticket isGone) := by
  unfold Engine.dropChildIf
  split
  next => exact update engine ticket _
  next => exact refl engine

theorem failIfExhausted
    (engine : Engine)
    (ticket : Ticket)
    (restartable : Bool) :
    SameStanding engine (engine.failIfExhausted ticket restartable).1 := by
  unfold Engine.failIfExhausted
  split
  next => exact finish engine ticket _
  next => exact refl engine

end Operations

section Signals

theorem receiveLeft
    (engine : Engine)
    (ticket : Ticket)
    (right : Nat)
    (signal : Signal) :
    SameStanding engine (engine.receiveLeft ticket right signal).1 := by
  cases signal with
  | matched bindings isLast =>
      refine (dropChildIf engine ticket isLast).trans ?_
      simp only [Engine.receiveLeft]
      split
      next => exact failIfExhausted _ ticket true
      next => exact (create _ right (some ticket) bindings).trans (update _ ticket _)
  | failed restartable =>
      exact (update engine ticket _).trans (failIfExhausted _ ticket restartable)

theorem receiveRight
    (engine : Engine)
    (ticket : Ticket)
    (state : PatternState)
    (sender : Ticket)
    (signal : Signal) :
    SameStanding engine (engine.receiveRight ticket state sender signal).1 := by
  cases signal with
  | matched bindings isLast =>
      simp only [Engine.receiveRight]
      split
      next => exact (update engine ticket _).trans (finish _ ticket _)
      next => exact update engine ticket _
  | failed restartable =>
      exact (update engine ticket _).trans (failIfExhausted _ ticket restartable)

theorem receiveEvery
    (engine : Engine)
    (ticket : Ticket)
    (state : PatternState)
    (signal : Signal) :
    SameStanding engine (engine.receiveEvery ticket state signal).1 := by
  cases signal with
  | matched bindings isLast => exact dropChildIf engine ticket isLast
  | failed restartable =>
      simp only [Engine.receiveEvery]
      split
      next => exact update engine ticket _
      next => exact (update engine ticket _).trans (finish _ ticket _)

theorem receiveAlternation
    (engine : Engine)
    (ticket : Ticket)
    (state : PatternState)
    (children : List Ticket)
    (sender : Ticket)
    (signal : Signal) :
    SameStanding engine (engine.receiveAlternation ticket state children sender signal).1 := by
  cases signal with
  | matched bindings isLast =>
      cases isLast with
      | true => exact finish engine ticket _
      | false => exact refl engine
  | failed restartable =>
      simp only [Engine.receiveAlternation]
      split
      next => exact (update engine ticket _).trans (finish _ ticket _)
      next => exact update engine ticket _

theorem receiveConjunction
    (engine : Engine)
    (ticket : Ticket)
    (state : PatternState)
    (operands : List Conjunct)
    (sender : Ticket)
    (signal : Signal) :
    SameStanding engine (engine.receiveConjunction ticket state operands sender signal).1 := by
  cases signal with
  | matched bindings isLast =>
      simp only [Engine.receiveConjunction]
      split
      next => exact (update engine ticket _).trans (finish _ ticket _)
      next => exact update engine ticket _
  | failed restartable => exact finish engine ticket _

theorem receiveRepetition
    (engine : Engine)
    (ticket : Ticket)
    (state : PatternState)
    (least : Nat)
    (most : Option Nat)
    (innerSlots : List Nat)
    (child : Option Ticket)
    (rounds : Nat)
    (collected : Row)
    (signal : Signal) :
    SameStanding engine
      (engine.receiveRepetition ticket state least most innerSlots child rounds collected
        signal).1 := by
  cases signal with
  | matched bindings isLast =>
      simp only [Engine.receiveRepetition]
      split
      next => exact (update engine ticket _).trans (finish _ ticket _)
      next => split <;> exact update engine ticket _
  | failed restartable => exact finish engine ticket _

theorem receiveNegation
    (engine : Engine)
    (ticket : Ticket)
    (signal : Signal) :
    SameStanding engine (engine.receiveNegation ticket signal).1 := by
  cases signal with
  | matched bindings isLast => exact finish engine ticket _
  | failed restartable => exact update engine ticket _

theorem receiveWithin
    (engine : Engine)
    (ticket : Ticket)
    (state : PatternState)
    (absence : Bool)
    (child : Option Ticket)
    (deadline : Int)
    (signal : Signal) :
    SameStanding engine
      (engine.receiveWithin ticket state absence child deadline signal).1 := by
  cases signal with
  | matched bindings isLast =>
      simp only [Engine.receiveWithin]
      split
      next => exact update engine ticket _
      next =>
          split
          next => exact finish engine ticket _
          next => exact refl engine
  | failed restartable => exact finish engine ticket _

theorem receiveGuarded
    (engine : Engine)
    (ticket : Ticket)
    (state : PatternState)
    (guard : Node)
    (signal : Signal) :
    SameStanding engine (engine.receiveGuarded ticket state guard signal).1 := by
  cases signal with
  | matched bindings isLast =>
      simp only [Engine.receiveGuarded]
      split
      next => exact (test engine guard bindings).trans (finish _ ticket _)
      next =>
          split
          next => exact (test engine guard bindings).trans (finish _ ticket _)
          next => exact test engine guard bindings
  | failed restartable => exact finish engine ticket _

theorem receive
    (engine : Engine)
    (ticket sender : Ticket)
    (signal : Signal) :
    SameStanding engine (engine.receive ticket sender signal).1 := by
  unfold Engine.receive
  split
  next => exact refl engine
  next =>
      split
      next => exact receiveEvery engine ticket _ signal
      next =>
          split
          next => exact receiveLeft engine ticket _ signal
          next => exact receiveRight engine ticket _ sender signal
      next => exact receiveAlternation engine ticket _ _ sender signal
      next => exact receiveConjunction engine ticket _ _ sender signal
      next => exact receiveRepetition engine ticket _ _ _ _ _ _ _ signal
      next => exact receiveNegation engine ticket signal
      next => exact receiveWithin engine ticket _ _ _ _ signal
      next => exact receiveGuarded engine ticket _ _ signal
      next => exact refl engine

end Signals

section Tasks

theorem activate
    (engine : Engine)
    (ticket : Ticket) :
    SameStanding engine (engine.activate ticket).1 := by
  unfold Engine.activate
  split
  next => exact refl engine
  next =>
      split
      next => exact ⟨rfl, rfl, rfl, rfl, rfl, rfl, rfl⟩
      next => exact ⟨rfl, rfl, rfl, rfl, rfl, rfl, rfl⟩
      next => exact startChild engine ticket _ _
      next => exact startChild engine ticket _ _
      next => exact startOperands engine ticket _ _
      next => exact startOperands engine ticket _ _
      next => exact startChild engine ticket _ _
      next => exact startChild engine ticket _ _
      next => exact (schedule engine ticket _ _).trans (startChild _ ticket _ _)
      next => exact startChild engine ticket _ _
      next => exact refl engine

theorem rearm
    (engine : Engine)
    (ticket : Ticket) :
    SameStanding engine (engine.rearm ticket).1 := by
  unfold Engine.rearm
  split
  next => exact refl engine
  next =>
      split
      next => exact startChild engine ticket _ _
      next => exact refl engine

theorem iterate
    (engine : Engine)
    (ticket : Ticket) :
    SameStanding engine (engine.iterate ticket).1 := by
  unfold Engine.iterate
  split
  next => exact refl engine
  next =>
      split
      next => exact startChild engine ticket _ _
      next => exact refl engine

theorem offer
    (engine : Engine)
    (ticket : Ticket)
    (event : Event) :
    SameStanding engine (engine.offer ticket event).1 := by
  unfold Engine.offer
  split
  next => exact refl engine
  next state _ =>
      split
      next slot predicate _ =>
          cases predicate with
          | none => exact finish engine ticket _
          | some condition =>
              have tested := test engine condition (state.bindings ++ [Value.event event])
              simp only
              split
              next => exact tested.trans (finish _ ticket _)
              next => exact tested
      next => exact refl engine

theorem expire
    (engine : Engine)
    (ticket : Ticket) :
    SameStanding engine (engine.expire ticket).1 := by
  unfold Engine.expire
  split
  next => exact refl engine
  next =>
      split
      next => exact finish engine ticket _
      next => exact finish engine ticket _
      next => exact finish engine ticket _
      next => exact refl engine

/-- A task that does not report out of the pattern leaves an engine its standing. -/
theorem perform
    (engine : Engine)
    {task : Task}
    (inside : ∀ sender signal, task ≠ .report none sender signal) :
    SameStanding engine (engine.perform task).1 := by
  cases task with
  | activate ticket => exact activate engine ticket
  | operand owner ticket =>
      simp only [Engine.perform]
      split
      next => exact activate engine ticket
      next => exact release engine _
  | absence ticket =>
      simp only [Engine.perform]
      split <;> exact refl engine
  | report receiver sender signal =>
      cases receiver with
      | none => exact absurd rfl (inside sender signal)
      | some receiver => exact receive engine receiver sender signal
  | rearm ticket => exact rearm engine ticket
  | iterate ticket => exact iterate engine ticket
  | offer ticket event => exact offer engine ticket event
  | expire ticket => exact expire engine ticket

end Tasks

end SameStanding

/-- Only a report out of the pattern completes a match. -/
theorem completed_step
    {engine : Engine}
    {task : Task}
    {rest : List Task}
    (isAgenda : engine.agenda = task :: rest)
    (inside : ∀ sender signal, task ≠ .report none sender signal) :
    engine.step.completed = engine.completed := by
  rw [step_of_agenda isAgenda]
  exact (SameStanding.perform engine inside).completed

/-- A completed match stays until it is handed out. -/
theorem prefix_completed_iterate
    (engine : Engine)
    (steps : Nat) :
    engine.completed <+: (step^[steps] engine).completed := by
  induction steps generalizing engine with
  | zero => exact List.prefix_refl _
  | succ steps inductionHypothesis =>
      refine List.IsPrefix.trans ?_ (inductionHypothesis engine.step)
      cases isAgenda : engine.agenda with
      | nil =>
          exact ⟨[], by rw [step_of_isAtRest (List.isEmpty_iff.mpr isAgenda), List.append_nil]⟩
      | cons task rest =>
          by_cases out : ∃ sender signal, task = .report none sender signal
          · obtain ⟨sender, signal, isTask⟩ := out
            subst isTask
            rw [step_of_agenda isAgenda]
            cases signal with
            | matched bindings isLast => exact List.prefix_append _ _
            | failed restartable => exact List.prefix_refl _
          · have same := completed_step isAgenda fun sender signal isTask =>
              out ⟨sender, signal, isTask⟩
            exact ⟨[], by rw [same, List.append_nil]⟩

/-- The pattern, the time and the limits of an engine stay the same through a call. -/
structure SameTerms (before after : Engine) : Prop where
  pattern : after.pattern = before.pattern
  now : after.now = before.now
  limit : after.limit = before.limit
  patience : after.patience = before.patience

namespace SameTerms

theorem trans
    {first second third : Engine}
    (earlier : SameTerms first second)
    (later : SameTerms second third) :
    SameTerms first third where
  pattern := later.pattern.trans earlier.pattern
  now := later.now.trans earlier.now
  limit := later.limit.trans earlier.limit
  patience := later.patience.trans earlier.patience

theorem perform
    (engine : Engine)
    (task : Task) :
    SameTerms engine (engine.perform task).1 := by
  by_cases out : ∃ sender signal, task = .report none sender signal
  · obtain ⟨sender, signal, rfl⟩ := out
    cases signal <;> exact ⟨rfl, rfl, rfl, rfl⟩
  · have same := SameStanding.perform engine fun sender signal isTask =>
      out ⟨sender, signal, isTask⟩
    exact ⟨same.pattern, same.now, same.limit, same.patience⟩

theorem step
    (engine : Engine) :
    SameTerms engine engine.step := by
  cases isAgenda : engine.agenda with
  | nil =>
      rw [step_of_isAtRest (List.isEmpty_iff.mpr isAgenda)]
      exact ⟨rfl, rfl, rfl, rfl⟩
  | cons task rest =>
      rw [step_of_agenda isAgenda]
      obtain ⟨samePattern, sameTime, sameLimit, samePatience⟩ := perform engine task
      exact ⟨samePattern, sameTime, sameLimit, samePatience⟩

theorem iterate
    (engine : Engine)
    (steps : Nat) :
    SameTerms engine (Engine.step^[steps] engine) := by
  induction steps generalizing engine with
  | zero => exact ⟨rfl, rfl, rfl, rfl⟩
  | succ steps inductionHypothesis =>
      exact (step engine).trans (inductionHypothesis engine.step)

theorem settle
    (engine : Engine) :
    SameTerms engine engine.settle := by
  rw [Engine.settle, performTasks_eq_iterate]
  exact iterate engine engine.patience

end SameTerms

end Engine

end EventQuery
