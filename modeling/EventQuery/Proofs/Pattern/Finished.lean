import EventQuery.Proofs.Pattern.Standing
import EventQuery.Proofs.Pattern.WellFormed

namespace EventQuery

/-- What a state reports last. -/
def Signal.isLast : Signal → Bool
  | .matched _ isLast => isLast
  | .failed _ => true

namespace Engine

/-!
# Finished engines

When the root of a pattern reports for the last time, nothing of the pattern is alive any more.  The
tasks that are still to be done then find nobody, and whatever is called later is answered with what
was completed before.
-/

/-- Make calls one after another: the engine after them, and the matches that each hands out. -/
def makeCalls (engine : Engine) : List Call → Engine × List (List Row)
  | [] => (engine, [])
  | next :: rest =>
      let made := engine.call next
      let later := made.1.makeCalls rest
      (later.1, made.2 :: later.2)

theorem makeCalls_append
    (engine : Engine)
    (first second : List Call) :
    engine.makeCalls (first ++ second) =
      (((engine.makeCalls first).1.makeCalls second).1,
        (engine.makeCalls first).2 ++ ((engine.makeCalls first).1.makeCalls second).2) := by
  induction first generalizing engine with
  | nil => rfl
  | cons next rest inductionHypothesis =>
      simp only [List.cons_append, makeCalls, inductionHypothesis]

/-- The time of an engine after a call. -/
def Call.present (now : Int) : Call → Int
  | .time told => max now told
  | _ => now

/-- The time of an engine after some calls: the latest one that it was told. -/
def timeAfter (now : Int) (calls : List Call) : Int := calls.foldl Call.present now

/-- A run leads to the engine after its calls. -/
theorem Run.eq_makeCalls
    {compiled : CompiledPattern}
    {limit patience : Nat}
    {now : Int}
    {calls : List Call}
    {engine : Engine}
    (run : Run compiled limit patience now calls engine) :
    engine = ((Engine.start compiled limit patience now).makeCalls calls).1 := by
  induction run with
  | start => rfl
  | call next _ _ inductionHypothesis =>
      rw [makeCalls_append, ← inductionHypothesis]
      rfl

/-- The limits of an engine are those that it was started with, and its time is what it was told. -/
theorem Run.terms
    {compiled : CompiledPattern}
    {limit patience : Nat}
    {now : Int}
    {calls : List Call}
    {engine : Engine}
    (run : Run compiled limit patience now calls engine) :
    engine.pattern = compiled ∧ engine.limit = limit ∧ engine.patience = patience ∧
      engine.now = timeAfter now calls := by
  induction run with
  | start =>
      have same := SameTerms.settle (opened compiled limit patience now)
      exact ⟨same.pattern, same.limit, same.patience, same.now⟩
  | @call calls engine next _ _ inductionHypothesis =>
      obtain ⟨isPattern, isLimit, isPatience, isNow⟩ := inductionHypothesis
      rw [timeAfter, List.foldl_append, List.foldl_cons, List.foldl_nil, ← timeAfter, ← isNow]
      cases next with
      | event event =>
          have same := SameTerms.settle (engine.begun (.event event))
          exact ⟨same.pattern.trans isPattern, same.limit.trans isLimit,
            same.patience.trans isPatience, same.now⟩
      | time told =>
          have same := SameTerms.settle (engine.begun (.time told))
          exact ⟨same.pattern.trans isPattern, same.limit.trans isLimit,
            same.patience.trans isPatience, same.now⟩
      | stop => exact ⟨isPattern, isLimit, isPatience, rfl⟩

section Lifeless

variable {engine : Engine}

/-- Nothing is alive. -/
def Lifeless (engine : Engine) : Prop := ∀ ticket, engine.states.get? ticket = none

/-- No task reports. -/
def Quiet (tasks : List Task) : Prop :=
  ∀ receiver sender signal, Task.report receiver sender signal ∉ tasks

/-- Where nothing is alive a task finds nobody. -/
theorem perform_of_lifeless
    (lifeless : engine.Lifeless)
    {task : Task}
    (inside : ∀ sender signal, task ≠ .report none sender signal) :
    engine.perform task = (engine, []) := by
  cases task with
  | operand owner state =>
      simp only [perform, Pool.contains, lifeless owner, Option.isSome_none, Bool.false_eq_true,
        if_false, release_of_dead (lifeless state)]
  | report receiver sender signal =>
      cases receiver with
      | none => exact absurd rfl (inside sender signal)
      | some receiver => simp only [perform, receive, lifeless receiver]
  | activate state => simp only [perform, activate, lifeless state]
  | absence state => simp only [perform, lifeless state]
  | rearm state => simp only [perform, rearm, lifeless state]
  | iterate state => simp only [perform, iterate, lifeless state]
  | offer state event => simp only [perform, offer, lifeless state]
  | expire state => simp only [perform, expire, lifeless state]

/-- Where nothing is alive the agenda is gone through and nothing changes. -/
theorem iterate_of_lifeless
    (lifeless : engine.Lifeless)
    (quiet : Quiet engine.agenda)
    (steps : Nat) :
    step^[steps] engine = { engine with agenda := engine.agenda.drop steps } := by
  induction steps generalizing engine with
  | zero => rfl
  | succ steps inductionHypothesis =>
      rw [Function.iterate_succ_apply]
      cases isAgenda : engine.agenda with
      | nil =>
          rw [step_of_isAtRest (List.isEmpty_iff.mpr isAgenda),
            inductionHypothesis lifeless quiet, isAgenda, List.drop_nil, List.drop_nil]
      | cons task rest =>
          have inside : ∀ sender signal, task ≠ .report none sender signal := by
            intro sender signal isTask
            exact quiet none sender signal (by rw [isAgenda, isTask]; exact List.mem_cons_self)
          have quietRest : Quiet rest := by
            intro receiver sender signal member
            exact quiet receiver sender signal (by rw [isAgenda]; exact List.mem_cons_of_mem _ member)
          rw [step_of_agenda isAgenda, perform_of_lifeless lifeless inside]
          exact inductionHypothesis lifeless quietRest

/-- Where nothing is alive, rest is reached when the agenda has been gone through. -/
theorem reaches_of_lifeless
    (lifeless : engine.Lifeless)
    (quiet : Quiet engine.agenda) :
    Reaches engine.agenda.length engine fun reached => reached = { engine with agenda := [] } := by
  refine ⟨engine.agenda.length, Nat.le_refl _, ?_⟩
  rw [iterate_of_lifeless lifeless quiet, List.drop_length]

/-- With its last report a pattern is over: nothing is alive, and nothing else was to be reported. -/
theorem Due.lifeless_of_last
    {compiled : CompiledPattern}
    {law : RowLaw compiled}
    {moment horizon : Nat}
    (table : compiled.Sound)
    (due : Due law moment horizon engine)
    {sender : Ticket}
    {signal : Signal}
    {rest : List Task}
    (isAgenda : engine.agenda = .report none sender signal :: rest)
    (isLast : signal.isLast = true) :
    engine.step.root = none ∧ engine.step.agenda = rest ∧ engine.step.Lifeless ∧ Quiet rest := by
  have next := due.step table
  have isStep : engine.step = { engine.conclude signal with agenda := rest } := by
    rw [step_of_agenda isAgenda]
    rfl
  have isRest : engine.step.agenda = rest := by rw [isStep]
  have rootless : engine.step.root = none := by
    rw [isStep]
    cases signal with
    | matched bindings isLastOne =>
        cases isLastOne with
        | true => rfl
        | false => cases isLast
    | failed => rfl
  have quiet : Quiet rest := by
    unfold Due at due
    rw [isAgenda] at due
    obtain ⟨_, _, _, apt⟩ := due
    intro receiver other told member
    exact apt _ member
  have coherent : engine.step.Coherent law moment horizon (Task.started rest ++ []) none [] := by
    unfold Due at next
    rw [isRest] at next
    cases rest with
    | nil => exact next.1
    | cons task others =>
        cases task with
        | report receiver other told => exact absurd List.mem_cons_self (quiet receiver other told)
        | _ => exact next.1
  refine ⟨rootless, isRest, fun ticket => ?_, quiet⟩
  rw [Option.eq_none_iff_forall_not_mem]
  exact fun state live => coherent.rooted live rootless

end Lifeless

section Finished

variable {engine : Engine}

/-- An engine at rest is settled. -/
theorem settle_of_isAtRest
    (atRest : engine.isAtRest = true) :
    engine.settle = engine := by
  rw [settle, performTasks_eq_iterate, Function.iterate_fixed (step_of_isAtRest atRest)]

/-- A finished engine hands out what was completed before, and does nothing more. -/
theorem call_of_finished
    (wellFormed : engine.WellFormed)
    (atRest : engine.isAtRest = true)
    (rootless : engine.root = none)
    (next : Call) :
    (engine.call next).1.isAtRest = true ∧ (engine.call next).1.root = none ∧
      (engine.call next).1.completed = [] ∧
      (engine.call next).2 =
        match next with
        | .stop => []
        | _ => engine.completed := by
  obtain ⟨_, noFilters, noDeadlines, _⟩ := wellFormed.finished rootless
  have noTasks := List.isEmpty_iff.mp atRest
  cases next with
  | stop => exact ⟨rfl, rfl, rfl, rfl⟩
  | event event =>
      have begins : (engine.begun (.event event)).settle = engine := by
        have unchanged : engine.begun (.event event) = engine := by
          obtain ⟨_⟩ := engine
          simp only at noFilters noTasks
          simp only [begun, candidates, noFilters, noTasks, List.filterMap_nil, List.map_nil,
            List.append_nil]
        rw [unchanged, settle_of_isAtRest atRest]
      have called : engine.call (.event event) = engine.handOut := by
        change (engine.begun (.event event)).settle.handOut = _
        rw [begins]
      rw [called]
      exact ⟨atRest, rootless, rfl, rfl⟩
  | time told =>
      have unchanged : engine.begun (.time told) = { engine with now := max engine.now told } := by
        obtain ⟨_⟩ := engine
        simp only at noDeadlines noTasks
        simp only [begun, noDeadlines, noTasks, StateIndex.upTo, List.filter_nil, List.map_nil,
          List.append_nil]
      have called : engine.call (.time told) =
          handOut { engine with now := max engine.now told } := by
        change (engine.begun (.time told)).settle.handOut = _
        have stillAtRest : isAtRest { engine with now := max engine.now told } = true := atRest
        rw [unchanged, settle_of_isAtRest stillAtRest]
      rw [called]
      exact ⟨atRest, rootless, rfl, rfl⟩

/-- A finished engine that has handed out its matches hands out no more, whatever is called. -/
theorem Run.makeCalls_of_finished
    {schema : Schema}
    {expr : PatternExpr}
    {compiled : CompiledPattern}
    (success : CompiledPattern.compile schema expr = .ok compiled)
    {limit patience : Nat}
    {now : Int}
    {earlier : List Call}
    (run : Run compiled limit patience now earlier engine)
    (rootless : engine.root = none)
    (handedOut : engine.completed = [])
    (calls : List Call) :
    Run compiled limit patience now (earlier ++ calls) (engine.makeCalls calls).1 ∧
      (engine.makeCalls calls).1.root = none ∧
      (engine.makeCalls calls).2 = calls.map fun _ => [] := by
  induction calls generalizing engine earlier with
  | nil =>
      rw [List.append_nil]
      exact ⟨run, rootless, rfl⟩
  | cons next rest inductionHypothesis =>
      obtain ⟨atRest, stillRootless, noneLeft, handsOut⟩ :=
        call_of_finished (Run.wellFormed success run) run.atRest rootless next
      obtain ⟨runs, isRootless, replies⟩ :=
        inductionHypothesis (.call next run atRest) stillRootless noneLeft
      have nothing : (engine.call next).2 = [] := by
        rw [handsOut, handedOut]
        cases next <;> rfl
      rw [List.append_assoc, List.singleton_append] at runs
      exact ⟨runs, isRootless, congrArg₂ List.cons nothing replies⟩

/-- A finished engine has no live state. -/
theorem WellFormed.stateCount_of_finished
    (wellFormed : engine.WellFormed)
    (rootless : engine.root = none) :
    engine.stateCount = 0 := by
  have occupied : (PoolSlot.isOccupied : PoolSlot PatternState → Bool) =
      fun slot => slot.content.any fun _ => true := by
    funext slot
    cases isContent : slot.content <;> simp [PoolSlot.isOccupied, isContent]
  rw [stateCount, Pool.size, occupied]
  exact Pool.count_eq_zero (wellFormed.finished rootless).1 fun _ => true

end Finished

end Engine

end EventQuery
