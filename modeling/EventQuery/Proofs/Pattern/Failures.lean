import EventQuery.Pattern.Step

namespace EventQuery

/-!
# Failures

A failure tells whether a pattern under `every` may start over after it.  No operator fails for good by
itself: a failure that it reports leaves that choice, unless one that it has heard of did not.
-/

/-- A signal is no failure that ends a pattern under `every` as well. -/
def Signal.IsRestartable : Signal → Prop
  | .matched _ _ => True
  | .failed restartable => restartable = true

/-- A task brings no failure that ends a pattern under `every` as well. -/
def Task.IsRestartable : Task → Prop
  | .report _ _ signal => signal.IsRestartable
  | _ => True

namespace Engine

section Failures

/-- All failures among some tasks leave the choice to start over. -/
def Restartable (tasks : List Task) : Prop := ∀ task ∈ tasks, task.IsRestartable

variable {engine : Engine} {ticket : Ticket} {state : PatternState} {signal : Signal}

theorem restartable_nil : Restartable [] := nofun

theorem restartable_cons
    {task : Task}
    {tasks : List Task}
    (first : task.IsRestartable)
    (rest : Restartable tasks) :
    Restartable (task :: tasks) :=
  List.forall_mem_cons.mpr ⟨first, rest⟩

private theorem restartable_startOperands
    (engine : Engine)
    (owner : Ticket)
    (operands : List Nat)
    (bindings : Row) :
    Restartable (engine.startOperands owner operands bindings).2 := by
  intro next member
  obtain ⟨birth, _, rfl⟩ := List.mem_map.mp member
  trivial

private theorem restartable_finish
    (isRestartable : signal.IsRestartable) :
    Restartable (engine.finish ticket signal).2 := by
  unfold finish
  split
  next => exact restartable_nil
  next => exact restartable_cons isRestartable restartable_nil

private theorem restartable_failIfExhausted
    {restartable : Bool}
    (isRestartable : restartable = true) :
    Restartable (engine.failIfExhausted ticket restartable).2 := by
  unfold failIfExhausted
  split
  next => exact restartable_finish isRestartable
  next => exact restartable_nil

private theorem restartable_activate
    (engine : Engine)
    (ticket : Ticket) :
    Restartable (engine.activate ticket).2 := by
  have started : ∀ birth, Restartable [.activate birth] :=
    fun birth => restartable_cons trivial restartable_nil
  unfold activate
  split
  next => exact restartable_nil
  next =>
      split
      next => exact restartable_nil
      next => exact restartable_nil
      next => exact started _
      next => exact started _
      next => exact restartable_startOperands _ _ _ _
      next => exact restartable_startOperands _ _ _ _
      next => exact started _
      next => exact restartable_cons trivial (restartable_cons trivial restartable_nil)
      next => exact started _
      next => exact started _
      next => exact restartable_nil

private theorem restartable_receiveEvery
    (isRestartable : signal.IsRestartable) :
    Restartable (engine.receiveEvery ticket state signal).2 := by
  cases signal with
  | matched bindings isLast =>
      refine restartable_cons trivial ?_
      cases isLast with
      | true => exact restartable_cons trivial restartable_nil
      | false => exact restartable_nil
  | failed restartable =>
      rw [show restartable = true from isRestartable]
      exact restartable_cons trivial restartable_nil

private theorem restartable_receiveLeft
    {right : Nat}
    (isRestartable : signal.IsRestartable) :
    Restartable (engine.receiveLeft ticket right signal).2 := by
  cases signal with
  | matched bindings isLast =>
      simp only [receiveLeft]
      split
      next => exact restartable_failIfExhausted rfl
      next => exact restartable_cons trivial restartable_nil
  | failed restartable => exact restartable_failIfExhausted isRestartable

private theorem restartable_receiveRight
    {sender : Ticket}
    (isRestartable : signal.IsRestartable) :
    Restartable (engine.receiveRight ticket state sender signal).2 := by
  cases signal with
  | matched bindings isLast =>
      simp only [receiveRight]
      split
      next => exact restartable_finish trivial
      next => exact restartable_cons trivial restartable_nil
  | failed restartable => exact restartable_failIfExhausted isRestartable

private theorem restartable_receiveAlternation
    {children : List Ticket}
    {sender : Ticket}
    (isRestartable : signal.IsRestartable) :
    Restartable (engine.receiveAlternation ticket state children sender signal).2 := by
  cases signal with
  | matched bindings isLast =>
      cases isLast with
      | true => exact restartable_finish trivial
      | false => exact restartable_cons trivial restartable_nil
  | failed restartable =>
      simp only [receiveAlternation]
      split
      next => exact restartable_finish isRestartable
      next => exact restartable_nil

private theorem restartable_receiveConjunction
    {operands : List Conjunct}
    {sender : Ticket}
    (isRestartable : signal.IsRestartable) :
    Restartable (engine.receiveConjunction ticket state operands sender signal).2 := by
  cases signal with
  | matched bindings isLast =>
      simp only [receiveConjunction]
      split
      next => exact restartable_finish trivial
      next => exact restartable_nil
  | failed restartable => exact restartable_finish isRestartable

private theorem restartable_receiveRepetition
    {least : Nat}
    {most : Option Nat}
    {innerSlots : List Nat}
    {child : Option Ticket}
    {rounds : Nat}
    {collected : Row}
    (isRestartable : signal.IsRestartable) :
    Restartable
      (engine.receiveRepetition ticket state least most innerSlots child rounds collected
        signal).2 := by
  cases signal with
  | matched bindings isLast =>
      simp only [receiveRepetition]
      split
      next => exact restartable_finish trivial
      next =>
          split
          next => exact restartable_cons trivial (restartable_cons trivial restartable_nil)
          next => exact restartable_cons trivial restartable_nil
  | failed restartable => exact restartable_finish isRestartable

private theorem restartable_receiveNegation :
    Restartable (engine.receiveNegation ticket signal).2 := by
  cases signal with
  | matched bindings isLast => exact restartable_finish rfl
  | failed restartable => exact restartable_nil

private theorem restartable_receiveWithin
    {absence : Bool}
    {child : Option Ticket}
    {deadline : Int}
    (isRestartable : signal.IsRestartable) :
    Restartable (engine.receiveWithin ticket state absence child deadline signal).2 := by
  cases signal with
  | matched bindings isLast =>
      simp only [receiveWithin]
      split
      next => exact restartable_nil
      next =>
          split
          next => exact restartable_finish trivial
          next => exact restartable_cons trivial restartable_nil
  | failed restartable => exact restartable_finish isRestartable

private theorem restartable_receiveGuarded
    {guard : Node}
    (isRestartable : signal.IsRestartable) :
    Restartable (engine.receiveGuarded ticket state guard signal).2 := by
  cases signal with
  | matched bindings isLast =>
      simp only [receiveGuarded]
      split
      next => exact restartable_finish rfl
      next =>
          split
          next => exact restartable_finish trivial
          next => exact restartable_cons trivial restartable_nil
  | failed restartable => exact restartable_finish isRestartable

/-- A state that hears of a failure passes on that it leaves the choice to start over. -/
private theorem restartable_receive
    (receiver sender : Ticket)
    (isRestartable : signal.IsRestartable) :
    Restartable (engine.receive receiver sender signal).2 := by
  unfold receive
  split
  next => exact restartable_nil
  next =>
      split
      next => exact restartable_receiveEvery isRestartable
      next =>
          split
          next => exact restartable_receiveLeft isRestartable
          next => exact restartable_receiveRight isRestartable
      next => exact restartable_receiveAlternation isRestartable
      next => exact restartable_receiveConjunction isRestartable
      next => exact restartable_receiveRepetition isRestartable
      next => exact restartable_receiveNegation
      next => exact restartable_receiveWithin isRestartable
      next => exact restartable_receiveGuarded isRestartable
      next => exact restartable_nil

/-- A task that brings no final failure leads to none. -/
theorem restartable_perform
    {task : Task}
    (isRestartable : task.IsRestartable) :
    Restartable (engine.perform task).2 := by
  cases task with
  | activate ticket => exact restartable_activate engine ticket
  | operand owner ticket =>
      simp only [perform]
      split
      next => exact restartable_activate engine ticket
      next => exact restartable_nil
  | absence ticket =>
      simp only [perform]
      split
      next => exact restartable_nil
      next => exact restartable_cons trivial restartable_nil
  | report receiver sender signal =>
      cases receiver with
      | none => exact restartable_nil
      | some receiver => exact restartable_receive receiver sender isRestartable
  | rearm ticket =>
      simp only [perform, rearm]
      split
      next => exact restartable_nil
      next =>
          split
          next => exact restartable_cons trivial restartable_nil
          next => exact restartable_nil
  | iterate ticket =>
      simp only [perform, iterate]
      split
      next => exact restartable_nil
      next =>
          split
          next => exact restartable_cons trivial restartable_nil
          next => exact restartable_nil
  | offer ticket event =>
      simp only [perform, offer]
      split
      next => exact restartable_nil
      next =>
          split
          next predicate _ =>
              cases predicate with
              | none => exact restartable_finish trivial
              | some condition =>
                  simp only
                  split
                  next => exact restartable_finish trivial
                  next => exact restartable_nil
          next => exact restartable_nil
  | expire ticket =>
      simp only [perform, expire]
      split
      next => exact restartable_nil
      next =>
          split
          next => exact restartable_finish trivial
          next => exact restartable_finish trivial
          next => exact restartable_finish rfl
          next => exact restartable_nil

end Failures

end Engine

end EventQuery
