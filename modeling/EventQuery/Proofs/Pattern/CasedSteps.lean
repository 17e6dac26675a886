import EventQuery.Proofs.Pattern.Casing

namespace EventQuery

/-!
# Steps inside a casing

Performing a task inside a casing is performing it in the engine inside, as long as the pattern
inside has no deadlines of its own and does not report out.  A call that shows an event, or tells a
time before every deadline of the operators around, begins with the tasks of the engine inside.
-/

/-- Timers and time bounds wait for a point of time. -/
def PatternNode.isTimed : PatternNode → Bool
  | .timer _ => true
  | .within _ _ _ => true
  | _ => false

/-- A pattern in which nothing waits for a point of time. -/
def CompiledPattern.Timeless (pattern : CompiledPattern) : Prop :=
  ∀ {number : Nat} {node : PatternNode},
    pattern.nodes[number]? = some node → node.isTimed = false

namespace Casing

variable {casing : Casing} {inner : Engine} {ticket sender : Ticket} {state : PatternState}

section Signals

theorem dropChildIf_engine (isGone : Bool) :
    (casing.engine inner).dropChildIf (casing.ticket ticket) isGone =
      casing.engine (inner.dropChildIf ticket isGone) := by
  have changes : ∀ progress,
      Progress.withoutChild (casing.progress progress) =
        casing.progress (Progress.withoutChild progress) := by
    intro progress
    cases progress <;> rfl
  cases isGone with
  | false => rfl
  | true => exact update_engine changes

theorem withoutChild_engine :
    (casing.engine inner).update (casing.ticket ticket) Progress.withoutChild =
      casing.engine (inner.update ticket Progress.withoutChild) :=
  dropChildIf_engine true

theorem receiveEvery_engine (signal : Signal) :
    (casing.engine inner).receiveEvery (casing.ticket ticket) (casing.state state) signal =
      casing.answer (inner.receiveEvery ticket state signal) := by
  cases signal with
  | matched bindings isLast =>
      simp only [Engine.receiveEvery, dropChildIf_engine]
      cases isLast <;> rfl
  | failed restartable =>
      simp only [Engine.receiveEvery, withoutChild_engine, finish_engine]
      cases restartable <;> rfl

theorem failIfExhausted_engine (restartable : Bool) :
    (casing.engine inner).failIfExhausted (casing.ticket ticket) restartable =
      casing.answer (inner.failIfExhausted ticket restartable) := by
  simp only [Engine.failIfExhausted, get?_engine, Option.map_map]
  cases live : inner.states.get? ticket with
  | none => rfl
  | some state =>
      obtain ⟨node, parent, created, bindings, progress⟩ := state
      simp only [Option.map_some, Function.comp_apply, Casing.state]
      cases progress with
      | sequence left rights =>
          cases left with
          | none =>
              cases rights with
              | nil => exact finish_engine _
              | cons => rfl
          | some => rfl
      | _ => rfl

theorem receiveLeft_engine (right : Nat) (signal : Signal) :
    (casing.engine inner).receiveLeft (casing.ticket ticket) (right + casing.depth) signal =
      casing.answer (inner.receiveLeft ticket right signal) := by
  cases signal with
  | matched bindings isLast =>
      simp only [Engine.receiveLeft, dropChildIf_engine, failIfExhausted_engine]
      have created := @create_engine casing (inner.dropChildIf ticket isLast) right (some ticket)
        bindings
      simp only [receiver, Option.elim_some] at created
      have changes : ∀ child progress,
          Progress.withRight (casing.ticket child) (casing.progress progress) =
            casing.progress (Progress.withRight child progress) := by
        intro child progress
        cases progress with
        | sequence left rights =>
            simp [Casing.progress, Progress.rename, Progress.withRight]
        | _ => rfl
      rw [created]
      simp only [update_engine (changes _)]
      change (if (inner.dropChildIf ticket isLast).limit ≤
        (inner.dropChildIf ticket isLast).leaves then _ else _) = _
      split <;> rfl
  | failed restartable =>
      simp only [Engine.receiveLeft, withoutChild_engine, failIfExhausted_engine]

theorem withoutRight_progress (progress : Progress) :
    Progress.withoutRight (casing.ticket sender) (casing.progress progress) =
      casing.progress (Progress.withoutRight sender progress) := by
  cases progress with
  | sequence left rights =>
      simp only [Casing.progress, Progress.rename, Progress.withoutRight, List.filter_map]
      refine congrArg _ (congrArg _ (List.filter_congr fun right _ => ?_))
      simp [bne, Bool.beq_eq_decide_eq, ticket_injective.eq_iff]
  | _ => rfl

theorem receiveRight_engine (signal : Signal) :
    (casing.engine inner).receiveRight (casing.ticket ticket) (casing.state state)
        (casing.ticket sender) signal =
      casing.answer (inner.receiveRight ticket state sender signal) := by
  cases signal with
  | matched bindings isLast =>
      have changes : ∀ progress,
          (if isLast then Progress.withoutRight (casing.ticket sender) else id)
              (casing.progress progress) =
            casing.progress
              ((if isLast then Progress.withoutRight sender else id) progress) := by
        intro progress
        cases isLast with
        | false => rfl
        | true => exact withoutRight_progress progress
      simp only [Engine.receiveRight, update_engine changes, finish_engine]
      have isChanged : (casing.state state).progress = casing.progress state.progress := rfl
      rw [isChanged, changes]
      generalize (if isLast then Progress.withoutRight sender else id) state.progress = changed
      cases changed with
      | sequence left rights =>
          cases left with
          | none => cases rights <;> rfl
          | some => rfl
      | _ => rfl
  | failed restartable =>
      simp only [Engine.receiveRight, update_engine withoutRight_progress, failIfExhausted_engine]

theorem receiveAlternation_engine (children : List Ticket) (signal : Signal) :
    (casing.engine inner).receiveAlternation (casing.ticket ticket) (casing.state state)
        (children.map casing.ticket) (casing.ticket sender) signal =
      casing.answer (inner.receiveAlternation ticket state children sender signal) := by
  cases signal with
  | matched bindings isLast =>
      cases isLast with
      | true => exact finish_engine _
      | false => rfl
  | failed restartable =>
      have left : (children.map casing.ticket).filter
          (fun child => child != casing.ticket sender) =
          (children.filter fun child => child != sender).map casing.ticket := by
        rw [List.filter_map]
        refine congrArg _ (List.filter_congr fun child _ => ?_)
        simp [bne, Bool.beq_eq_decide_eq, ticket_injective.eq_iff]
      have reduced : (casing.engine inner).update (casing.ticket ticket)
          (fun _ => .alternation ((children.filter fun child => child != sender).map
            casing.ticket)) =
          casing.engine (inner.update ticket fun _ =>
            .alternation (children.filter fun child => child != sender)) :=
        update_engine fun _ => rfl
      simp only [Engine.receiveAlternation, left, List.isEmpty_map, reduced, finish_engine]
      split <;> rfl

theorem record_rename (operands : List Conjunct) (bindings : Row) (isLast : Bool) :
    Conjunct.record (operands.map (Conjunct.rename casing.ticket)) (casing.ticket sender) bindings
        isLast =
      (Conjunct.record operands sender bindings isLast).map (Conjunct.rename casing.ticket) := by
  induction operands with
  | nil => rfl
  | cons first rest inductionHypothesis =>
      obtain ⟨held, bound⟩ := first
      have sameTest : held.map casing.ticket = some (casing.ticket sender) ↔ held = some sender := by
        cases held with
        | none => simp
        | some held => simp [ticket_injective.eq_iff]
      simp only [List.map_cons, Conjunct.record, Conjunct.rename, sameTest]
      split
      next => cases isLast <;> rfl
      next => rw [inductionHypothesis]; rfl

theorem merge_rename (start : Row) (operands : List Conjunct) :
    Conjunct.merge start (operands.map (Conjunct.rename casing.ticket)) =
      Conjunct.merge start operands := by
  rw [Conjunct.merge, List.filterMap_map, Conjunct.merge]
  rfl

theorem receiveConjunction_engine (operands : List Conjunct) (signal : Signal) :
    (casing.engine inner).receiveConjunction (casing.ticket ticket) (casing.state state)
        (operands.map (Conjunct.rename casing.ticket)) (casing.ticket sender) signal =
      casing.answer (inner.receiveConjunction ticket state operands sender signal) := by
  cases signal with
  | matched bindings isLast =>
      have changed : ∀ recorded : List Conjunct,
          (casing.engine inner).update (casing.ticket ticket)
              (fun _ => .conjunction (recorded.map (Conjunct.rename casing.ticket))) =
            casing.engine (inner.update ticket fun _ => .conjunction recorded) :=
        fun recorded => update_engine fun _ => rfl
      have isBound : ∀ recorded : List Conjunct,
          ((recorded.map (Conjunct.rename casing.ticket)).all
              fun operand => operand.bindings.isSome) =
            recorded.all fun operand => operand.bindings.isSome := by
        intro recorded
        rw [List.all_map]
        rfl
      simp only [Engine.receiveConjunction, record_rename, changed, isBound, merge_rename,
        finish_engine]
      split <;> rfl
  | failed restartable => exact finish_engine _

theorem receiveRepetition_engine (least : Nat) (most : Option Nat) (innerSlots : List Nat)
    (child : Option Ticket) (rounds : Nat) (collected : Row) (signal : Signal) :
    (casing.engine inner).receiveRepetition (casing.ticket ticket) (casing.state state) least most
        innerSlots (child.map casing.ticket) rounds collected signal =
      casing.answer (inner.receiveRepetition ticket state least most innerSlots child rounds
        collected signal) := by
  cases signal with
  | matched bindings isLast =>
      have counted : ∀ total : Row,
          (casing.engine inner).update (casing.ticket ticket)
              (fun _ => .repetition (if isLast then none else child.map casing.ticket)
                (rounds + 1) total) =
            casing.engine (inner.update ticket fun _ =>
              .repetition (if isLast then none else child) (rounds + 1) total) := by
        refine fun total => update_engine fun _ => ?_
        cases isLast <;> rfl
      simp only [Engine.receiveRepetition, counted, finish_engine]
      split
      next => rfl
      next =>
          split <;> rfl
  | failed restartable => exact finish_engine _

theorem receiveNegation_engine (signal : Signal) :
    (casing.engine inner).receiveNegation (casing.ticket ticket) signal =
      casing.answer (inner.receiveNegation ticket signal) := by
  cases signal with
  | matched bindings isLast => exact finish_engine _
  | failed restartable =>
      simp only [Engine.receiveNegation, withoutChild_engine]
      rfl

theorem receiveGuarded_engine (guard : Node) (signal : Signal) :
    (casing.engine inner).receiveGuarded (casing.ticket ticket) (casing.state state) guard signal =
      casing.answer (inner.receiveGuarded ticket state guard signal) := by
  cases signal with
  | matched bindings isLast =>
      simp only [Engine.receiveGuarded, test_engine, finish_engine]
      split
      next => rfl
      next =>
          cases isLast <;> rfl
  | failed restartable => exact finish_engine _

end Signals

section Tasks

theorem receive_engine (timeless : inner.pattern.Timeless) (signal : Signal) :
    (casing.engine inner).receive (casing.ticket ticket) (casing.ticket sender) signal =
      casing.answer (inner.receive ticket sender signal) := by
  rw [Engine.receive, get?_engine, Engine.receive]
  cases inner.states.get? ticket with
  | none => rfl
  | some state =>
      have isProgress : (casing.state state).progress = casing.progress state.progress := rfl
      simp only [Option.map_some, nodeOf_engine, isProgress]
      cases atNode : inner.nodeOf state with
      | none => rfl
      | some node =>
          have untimed := timeless atNode
          cases node with
          | every child => exact receiveEvery_engine signal
          | negation child => exact receiveNegation_engine signal
          | guarded child guard => exact receiveGuarded_engine guard signal
          | within => cases untimed
          | sequence left right =>
              cases state.progress with
              | sequence running rights =>
                  have sameTest : running.map casing.ticket = some (casing.ticket sender) ↔
                      running = some sender := by
                    cases running with
                    | none => simp
                    | some running => simp [ticket_injective.eq_iff]
                  simp only [Option.map_some, PatternNode.renumber, Casing.progress,
                    Progress.rename, sameTest, receiveLeft_engine, receiveRight_engine]
                  split <;> rfl
              | _ => rfl
          | alternation operands =>
              cases state.progress with
              | alternation children => exact receiveAlternation_engine children signal
              | _ => rfl
          | conjunction operands =>
              cases state.progress with
              | conjunction conjuncts => exact receiveConjunction_engine conjuncts signal
              | _ => rfl
          | repetition child least most innerSlots =>
              cases state.progress with
              | repetition running rounds collected =>
                  exact receiveRepetition_engine least most innerSlots running rounds collected
                    signal
              | _ => rfl
          | _ => rfl

theorem activate_engine (timeless : inner.pattern.Timeless) :
    (casing.engine inner).activate (casing.ticket ticket) =
      casing.answer (inner.activate ticket) := by
  rw [Engine.activate, get?_engine, Engine.activate]
  cases inner.states.get? ticket with
  | none => rfl
  | some state =>
      have isProgress : (casing.state state).progress = casing.progress state.progress := rfl
      have isBindings : (casing.state state).bindings = state.bindings := rfl
      simp only [Option.map_some, nodeOf_engine, isProgress, isBindings]
      cases atNode : inner.nodeOf state with
      | none => rfl
      | some node =>
          have untimed := timeless atNode
          cases node with
          | filter eventType slot predicate =>
              simp only [Option.map_some, PatternNode.renumber, await_engine]
              rfl
          | every child => exact startChild_engine child _
          | sequence left right => exact startChild_engine left _
          | guarded child guard => exact startChild_engine child _
          | alternation operands => exact startOperands_engine operands _
          | conjunction operands => exact startOperands_engine operands _
          | negation child =>
              simp only [Option.map_some, PatternNode.renumber, startChild_engine, answer,
                List.map_append]
              rfl
          | repetition child least most innerSlots =>
              cases state.progress with
              | repetition running rounds collected => exact startChild_engine child _
              | _ => rfl
          | within => cases untimed
          | timer => cases untimed

theorem rearm_engine :
    (casing.engine inner).rearm (casing.ticket ticket) = casing.answer (inner.rearm ticket) := by
  rw [Engine.rearm, get?_engine, Engine.rearm]
  cases inner.states.get? ticket with
  | none => rfl
  | some state =>
      have isProgress : (casing.state state).progress = casing.progress state.progress := rfl
      have isBindings : (casing.state state).bindings = state.bindings := rfl
      simp only [Option.map_some, nodeOf_engine, isProgress, isBindings]
      cases inner.nodeOf state with
      | none => rfl
      | some node =>
          cases node with
          | every child =>
              cases state.progress with
              | every running =>
                  cases running with
                  | none => exact startChild_engine child _
                  | some running => rfl
              | _ => rfl
          | _ => rfl

theorem iterate_engine :
    (casing.engine inner).iterate (casing.ticket ticket) =
      casing.answer (inner.iterate ticket) := by
  rw [Engine.iterate, get?_engine, Engine.iterate]
  cases inner.states.get? ticket with
  | none => rfl
  | some state =>
      have isProgress : (casing.state state).progress = casing.progress state.progress := rfl
      simp only [Option.map_some, nodeOf_engine, isProgress]
      cases inner.nodeOf state with
      | none => rfl
      | some node =>
          cases node with
          | repetition child least most innerSlots =>
              cases state.progress with
              | repetition running rounds collected =>
                  cases running with
                  | none => exact startChild_engine child _
                  | some running => rfl
              | _ => rfl
          | _ => rfl

theorem offer_engine (event : Event) :
    (casing.engine inner).offer (casing.ticket ticket) event =
      casing.answer (inner.offer ticket event) := by
  rw [Engine.offer, get?_engine, Engine.offer]
  cases inner.states.get? ticket with
  | none => rfl
  | some state =>
      have isBindings : (casing.state state).bindings = state.bindings := rfl
      simp only [Option.map_some, nodeOf_engine, isBindings]
      cases inner.nodeOf state with
      | none => rfl
      | some node =>
          cases node with
          | filter eventType slot predicate =>
              cases predicate with
              | none => exact finish_engine _
              | some condition =>
                  simp only [Option.map_some, PatternNode.renumber, test_engine, finish_engine]
                  split <;> rfl
          | _ => rfl

theorem expire_engine :
    (casing.engine inner).expire (casing.ticket ticket) = casing.answer (inner.expire ticket) := by
  rw [Engine.expire, get?_engine, Engine.expire]
  cases inner.states.get? ticket with
  | none => rfl
  | some state =>
      obtain ⟨node, parent, created, bindings, progress⟩ := state
      cases progress with
      | timer deadline => exact finish_engine _
      | within child deadline held =>
          cases held with
          | none => exact finish_engine _
          | some held => exact finish_engine _
      | _ => rfl

/-- Inside a casing a task is performed as it is on its own, unless the pattern reports out. -/
theorem perform_engine
    (timeless : inner.pattern.Timeless)
    {task : Task}
    (inside : ∀ sender signal, task ≠ .report none sender signal) :
    (casing.engine inner).perform (casing.task task) = casing.answer (inner.perform task) := by
  cases task with
  | activate state => exact activate_engine timeless
  | operand owner state =>
      have released := @release_engine casing inner [state]
      simp only [List.map_cons, List.map_nil] at released
      simp only [Casing.task, Engine.perform, contains_engine, activate_engine timeless, released]
      split <;> rfl
  | absence state =>
      rw [Casing.task, Engine.perform, get?_engine, Engine.perform]
      cases inner.states.get? state <;> rfl
  | report receiver sender signal =>
      cases receiver with
      | none => exact absurd rfl (inside sender signal)
      | some receiver => exact receive_engine timeless signal
  | rearm state => exact rearm_engine
  | iterate state => exact iterate_engine
  | offer state event => exact offer_engine event
  | expire state => exact expire_engine

end Tasks

end Casing

end EventQuery
