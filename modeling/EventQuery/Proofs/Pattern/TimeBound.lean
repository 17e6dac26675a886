import EventQuery.Proofs.Pattern.Operand
import EventQuery.Proofs.Pattern.Timeless

namespace EventQuery

/-!
# Time bounds

A pattern inside a time bound does what it does on its own until the deadline is told: each call
hands out the same matches, and one engine is finished when the other is.  The engine of the bounded
pattern is that of the pattern inside a casing with one state.  When the deadline is told, or when
the pattern is over, nothing of it is left.
-/

/-- What stands around a pattern inside a time bound. -/
def Casing.timeBound (blank : Row) (duration : Nat) (deadline : Int) (patience : Nat) : Casing where
  heads := [.within 1 duration false]
  slots := #[⟨0, some ⟨0, none, 0, blank, .within (some ⟨1, 0⟩) deadline none⟩⟩]
  sameSize := rfl
  root := ⟨0, 0⟩
  owner := ⟨0, 0⟩
  deadlines := [(⟨deadline, 0⟩, ⟨0, 0⟩)]
  early := by simp
  patience := patience
  afterwards := []

namespace Engine

section Settle

variable {blank : Row} {duration : Nat} {deadline : Int} {larger : Nat} {inner : Engine}

theorem get?_timeBound :
    ((Casing.timeBound blank duration deadline larger).engine inner).states.get? ⟨0, 0⟩ =
      some ⟨0, none, 0, blank, .within (some ⟨1, 0⟩) deadline none⟩ := by
  exact Casing.get?_front rfl

/-- The time bound hears a report as a time bound does. -/
theorem receive_timeBound
    (sender : Ticket)
    (signal : Signal) :
    ((Casing.timeBound blank duration deadline larger).engine inner).receive ⟨0, 0⟩ sender signal =
      ((Casing.timeBound blank duration deadline larger).engine inner).receiveWithin ⟨0, 0⟩
        ⟨0, none, 0, blank, .within (some ⟨1, 0⟩) deadline none⟩ false (some ⟨1, 0⟩) deadline
        signal := by
  rw [receive, get?_timeBound]
  rfl

/-- The time bound is gone after its last signal. -/
theorem finish_timeBound
    (signal : Signal) :
    ((Casing.timeBound blank duration deadline larger).engine inner).finish ⟨0, 0⟩ signal =
      (((Casing.timeBound blank duration deadline larger).engine inner).release [⟨0, 0⟩],
        [.report none ⟨0, 0⟩ signal]) := by
  rw [finish, get?_timeBound]

/-- A time bound passes on a match after which the pattern goes on. -/
theorem passes_timeBound
    {sender : Ticket}
    {bindings : Row}
    {rest : List Task}
    (isAgenda : inner.agenda = .report none sender (.matched bindings false) :: rest) :
    step^[2] ((Casing.timeBound blank duration deadline larger).engine inner) =
      (Casing.timeBound blank duration deadline larger).engine inner.step := by
  generalize isCasing : Casing.timeBound blank duration deadline larger = casing
  have outAgenda := @Casing.agenda_engine_of_report casing inner _ _ _ isAgenda
  have heard : (casing.engine inner).receive casing.owner (casing.ticket sender)
      (.matched bindings false) =
      (casing.engine inner, [.report none ⟨0, 0⟩ (.matched bindings false)]) := by
    subst isCasing
    exact receive_timeBound _ _
  have first : (casing.engine inner).step =
      { casing.engine inner with
        agenda := .report none ⟨0, 0⟩ (.matched bindings false) ::
          (rest.map casing.task ++ casing.afterwards) } := by
    rw [step_of_agenda outAgenda, perform, heard]
    rfl
  rw [Function.iterate_succ_apply, Function.iterate_one, first, step_of_agenda rfl,
    step_of_agenda isAgenda]
  rfl

/-- A time bound is over with the last report of the pattern. -/
theorem ends_timeBound
    {sender : Ticket}
    {signal : Signal}
    {rest : List Task}
    (isAgenda : inner.agenda = .report none sender signal :: rest)
    (isLast : signal.isLast = true) :
    let casing := Casing.timeBound blank duration deadline larger
    (casing.engine inner).step.agenda =
        .report none ⟨0, 0⟩ signal :: rest.map casing.task ∧
      (step^[2] (casing.engine inner)).completed = inner.step.completed := by
  intro casing
  have outAgenda := @Casing.agenda_engine_of_report casing inner _ _ _ isAgenda
  have heard : (casing.engine inner).receive casing.owner (casing.ticket sender) signal =
      ((casing.engine inner).release [⟨0, 0⟩], [.report none ⟨0, 0⟩ signal]) := by
    refine (receive_timeBound _ _).trans ?_
    cases signal with
    | matched bindings isLastOne =>
        cases isLastOne with
        | true => exact finish_timeBound _
        | false => cases isLast
    | failed restartable => exact finish_timeBound _
  have first : (casing.engine inner).step =
      { (casing.engine inner).release [⟨0, 0⟩] with
        agenda := .report none ⟨0, 0⟩ signal :: rest.map casing.task } := by
    rw [step_of_agenda outAgenda, perform, heard]
    simp [casing, Casing.timeBound]
  have kept := (SameStanding.release (casing.engine inner) [⟨0, 0⟩]).completed
  refine ⟨by rw [first], ?_⟩
  rw [Function.iterate_succ_apply, Function.iterate_one, first, step_of_agenda rfl,
    step_of_agenda isAgenda]
  cases signal with
  | matched bindings isLastOne => exact congrArg (· ++ [bindings]) kept
  | failed restartable => exact kept

variable {plain bounded : CompiledPattern} {law : RowLaw plain} {lawAround : RowLaw bounded}
  {moment horizon momentAround horizonAround : Nat}

/--
A pattern inside a time bound goes on as it does on its own, or both are over with the same matches.
-/
def CutTogether (casing : Casing) (inner outer : Engine) : Prop :=
  outer = casing.engine inner ∨
    (inner.root = none ∧ outer.root = none ∧ outer.completed = inner.completed)

/-- How a time bound follows a step of the pattern inside. -/
inductive KeepsPace (casing : Casing) (inner outer : Engine) : Prop where
  /-- The pattern goes on inside the time bound. -/
  | on : Reaches 1 outer.step (fun reached => reached = casing.engine inner.step) →
      KeepsPace casing inner outer
  /-- The pattern is over, and the time bound with it. -/
  | ended {next : Engine} :
      step^[2] outer = next →
        inner.step.root = none → inner.step.Lifeless → Quiet inner.step.agenda →
          next.root = none → next.Lifeless → Quiet next.agenda →
            next.agenda.length = inner.step.agenda.length →
              next.completed = inner.step.completed →
                KeepsPace casing inner outer

/-- Each step of a pattern is followed inside a time bound. -/
theorem keepsPace_timeBound
    (table : plain.Sound)
    (tableAround : bounded.Sound)
    (timeless : plain.Timeless)
    (due : Due law moment horizon inner)
    (dueAround : Due lawAround momentAround horizonAround
      ((Casing.timeBound blank duration deadline larger).engine inner))
    {task : Task}
    {rest : List Task}
    (isAgenda : inner.agenda = task :: rest) :
    KeepsPace (Casing.timeBound blank duration deadline larger) inner
      ((Casing.timeBound blank duration deadline larger).engine inner) := by
  by_cases out : ∃ sender signal, task = .report none sender signal
  · obtain ⟨sender, signal, isTask⟩ := out
    subst isTask
    cases isLast : signal.isLast with
    | true =>
        obtain ⟨outAgenda, sameMatches⟩ := ends_timeBound isAgenda isLast
        obtain ⟨rootless, isRest, lifeless, quiet⟩ :=
          due.lifeless_of_last table isAgenda isLast
        obtain ⟨rootlessAround, isRestAround, lifelessAround, quietAround⟩ :=
          (dueAround.step tableAround).lifeless_of_last tableAround outAgenda isLast
        refine .ended rfl rootless lifeless (isRest ▸ quiet) rootlessAround lifelessAround
          ?_ ?_ sameMatches
        · exact (isRestAround ▸ quietAround :)
        · exact (congrArg List.length isRestAround).trans
            ((List.length_map _).trans (congrArg List.length isRest.symm))
    | false =>
        cases signal with
        | failed restartable => cases isLast
        | matched bindings isLastOne =>
            cases isLast
            exact .on ⟨1, Nat.le_refl 1, passes_timeBound isAgenda⟩
  · have inside : ∀ sender signal, task ≠ .report none sender signal :=
      fun sender signal isTask => out ⟨sender, signal, isTask⟩
    exact .on ⟨0, Nat.zero_le 1, Casing.step_engine (due.kept.pattern ▸ timeless) isAgenda inside⟩

/-- An engine that is ready for its agenda is so after some more steps. -/
theorem Due.reached
    {compiled : CompiledPattern}
    {law : RowLaw compiled}
    {moment horizon bound : Nat}
    {engine goal : Engine}
    (due : Due law moment horizon engine)
    (table : compiled.Sound)
    (reaches : Reaches bound engine.step fun reached => reached = goal) :
    Due law moment horizon goal := by
  obtain ⟨steps, _, isReached⟩ := reaches
  rw [← isReached, ← performTasks_eq_iterate]
  exact (due.step table).performTasks table steps

/-- Where a pattern comes to rest on its own, it does so inside a time bound. -/
theorem reaches_timeBound
    (table : plain.Sound)
    (tableAround : bounded.Sound)
    (timeless : plain.Timeless)
    (due : Due law moment horizon inner)
    (dueAround : Due lawAround momentAround horizonAround
      ((Casing.timeBound blank duration deadline larger).engine inner))
    (steps : Nat)
    (atRest : (step^[steps] inner).isAtRest = true) :
    Reaches (2 * steps) ((Casing.timeBound blank duration deadline larger).engine inner)
      fun outer => outer.isAtRest = true ∧
        CutTogether (Casing.timeBound blank duration deadline larger) (step^[steps] inner)
          outer := by
  induction steps generalizing inner with
  | zero =>
      have noTasks : inner.agenda = [] := List.isEmpty_iff.mp atRest
      exact .now ⟨by simp [isAtRest, Casing.engine, noTasks, Casing.timeBound], .inl rfl⟩
  | succ steps inductionHypothesis =>
      rw [Function.iterate_succ_apply] at atRest ⊢
      cases isAgenda : inner.agenda with
      | nil =>
          have fixed := step_of_isAtRest (List.isEmpty_iff.mpr isAgenda)
          rw [fixed, Function.iterate_fixed fixed]
          refine (Reaches.now ⟨?_, .inl rfl⟩).mono (Nat.zero_le _)
          simp [isAtRest, Casing.engine, isAgenda, Casing.timeBound]
      | cons task rest =>
          cases keepsPace_timeBound table tableAround timeless due dueAround isAgenda with
          | on reaches =>
              have dueReached := dueAround.reached tableAround reaches
              have later := inductionHypothesis (due.step table) dueReached atRest
              refine (reaches.bind fun isBetween => ?_).step.mono
                (by omega : 1 + 2 * steps + 1 ≤ 2 * (steps + 1))
              rw [isBetween]
              exact later
          | ended isNext rootless lifeless quiet rootlessAround lifelessAround quietAround sameLength
              sameMatches =>
              have enough := length_le_of_isAtRest atRest
              have reaches := reaches_of_lifeless lifelessAround quietAround
              rw [← isNext] at reaches
              refine (reaches.step.step.imp ?_).mono (by rw [isNext]; omega)
              rintro reached isReached
              rw [isReached, iterate_of_lifeless lifeless quiet, isNext]
              exact ⟨rfl, .inr ⟨rootless, rootlessAround, sameMatches⟩⟩

/-- Where a time bound comes to rest, the pattern inside does so on its own. -/
theorem isAtRest_of_timeBound
    (table : plain.Sound)
    (tableAround : bounded.Sound)
    (timeless : plain.Timeless)
    (due : Due law moment horizon inner)
    (dueAround : Due lawAround momentAround horizonAround
      ((Casing.timeBound blank duration deadline larger).engine inner))
    (steps : Nat)
    (atRest : (step^[steps] ((Casing.timeBound blank duration deadline larger).engine
      inner)).isAtRest = true) :
    (step^[steps] inner).isAtRest = true := by
  induction steps generalizing inner with
  | zero =>
      have noTasks := List.isEmpty_iff.mp atRest
      simp only [Function.iterate_zero, id_eq, Casing.engine, List.append_eq_nil_iff,
        List.map_eq_nil_iff] at noTasks
      exact List.isEmpty_iff.mpr noTasks.1
  | succ steps inductionHypothesis =>
      cases isAgenda : inner.agenda with
      | nil =>
          have isRest : inner.isAtRest = true := List.isEmpty_iff.mpr isAgenda
          rw [Function.iterate_fixed (step_of_isAtRest isRest)]
          exact isRest
      | cons task rest =>
          rw [Function.iterate_succ_apply]
          cases keepsPace_timeBound table tableAround timeless due dueAround isAgenda with
          | on reaches =>
              have dueReached := dueAround.reached tableAround reaches
              obtain ⟨more, order, isReached⟩ := reaches
              have isSame := iterate_step_of_isAtRest atRest
                (by omega : steps + 1 ≤ steps + more + 1)
              rw [← isSame, Function.iterate_succ_apply, Function.iterate_add_apply,
                isReached] at atRest
              exact inductionHypothesis (due.step table) dueReached atRest
          | ended isNext rootless lifeless quiet rootlessAround lifelessAround quietAround sameLength
              sameMatches =>
              have isSame := iterate_step_of_isAtRest atRest (by omega : steps + 1 ≤ steps + 2)
              rw [← isSame, Function.iterate_add_apply, isNext] at atRest
              have enough := length_le_of_isAtRest atRest
              rw [sameLength] at enough
              rw [iterate_of_lifeless lifeless quiet]
              exact List.isEmpty_iff.mpr (List.drop_eq_nil_of_le enough)

/--
A pattern on its own and inside a time bound settle together, with patience enough for both, when the
time bound comes to its operand after some steps.
-/
theorem settle_timeBound
    {law : RowLaw plain}
    {lawAround : RowLaw bounded}
    {moment horizon momentAround horizonAround lead patience : Nat}
    {outer : Engine}
    (table : plain.Sound)
    (tableAround : bounded.Sound)
    (timeless : plain.Timeless)
    (due : Due law moment horizon inner)
    (dueAround : Due lawAround momentAround horizonAround
      ((Casing.timeBound blank duration deadline larger).engine inner))
    (leads : step^[lead] outer = (Casing.timeBound blank duration deadline larger).engine inner)
    (patient : inner.patience = patience)
    (patientAround : outer.patience = larger)
    (returns : 2 * patience + lead ≤ larger ∧ inner.settle.isAtRest = true ∨
      larger ≤ patience ∧ outer.settle.isAtRest = true) :
    inner.settle.isAtRest = true ∧ outer.settle.isAtRest = true ∧
      CutTogether (Casing.timeBound blank duration deadline larger) inner.settle outer.settle := by
  have isSettled : inner.settle = step^[patience] inner := by
    rw [settle, performTasks_eq_iterate, patient]
  have isSettledAround : outer.settle = step^[larger] outer := by
    rw [settle, performTasks_eq_iterate, patientAround]
  rcases returns with ⟨enough, atRest⟩ | ⟨enough, atRest⟩
  · refine ⟨atRest, ?_⟩
    rw [isSettled] at atRest ⊢
    have reaches := reaches_timeBound table tableAround timeless due dueAround patience atRest
    rw [← leads] at reaches
    have arrives : Reaches lead outer fun reached => reached = step^[lead] outer :=
      ⟨lead, Nat.le_refl _, rfl⟩
    refine Reaches.settle (arrives.bind fun isReached => isReached ▸ reaches) ?_
    omega
  · rw [isSettledAround] at atRest ⊢
    have sameAround : step^[larger] ((Casing.timeBound blank duration deadline larger).engine inner) =
        step^[larger] outer := by
      rw [← leads, ← Function.iterate_add_apply]
      exact iterate_step_of_isAtRest atRest (Nat.le_add_right _ _)
    have restsAround := atRest
    rw [← sameAround] at restsAround
    have restsInside :=
      isAtRest_of_timeBound table tableAround timeless due dueAround larger restsAround
    obtain ⟨steps, order, restsEarlier, together⟩ :=
      reaches_timeBound table tableAround timeless due dueAround larger restsInside
    have sameEarlier : step^[steps] ((Casing.timeBound blank duration deadline larger).engine inner) =
        step^[larger] outer := by
      rw [← sameAround]
      rcases Nat.le_total larger steps with more | fewer
      · exact iterate_step_of_isAtRest restsAround more
      · exact (iterate_step_of_isAtRest restsEarlier fewer).symm
    rw [isSettled, iterate_step_of_isAtRest restsInside enough]
    exact ⟨restsInside, atRest, sameEarlier ▸ together⟩

end Settle

section Opened

variable {pattern : CompiledPattern} {duration : Nat}

/-- A pattern opens with the state of its first node, which is to run. -/
theorem opened_eq
    (pattern : CompiledPattern)
    (limit patience : Nat)
    (now : Int) :
    opened pattern limit patience now =
      { idle pattern limit patience now with
        states := ⟨#[⟨0, some ((idle pattern limit patience now).newState
          CompiledPattern.rootNumber none pattern.blank)⟩], []⟩
        root := some ⟨0, 0⟩
        next := 1
        agenda := [.activate ⟨0, 0⟩] } :=
  rfl

/-- A time bound schedules its deadline and starts its operand. -/
theorem step_opened_within
    {absence : Bool}
    (isBound : pattern.nodes[0]? = some (.within 1 duration absence))
    (limit patience : Nat)
    (now : Int) :
    let deadline := Progress.deadlineAfter now duration
    (opened pattern limit patience now).step =
      { idle pattern limit patience now with
        states := ⟨#[⟨0, some ⟨0, none, 0, pattern.blank, .within (some ⟨1, 0⟩) deadline none⟩⟩,
          ⟨0, some { (idle pattern limit patience now).newState 1 (some ⟨0, 0⟩) pattern.blank with
            created := 1 }⟩], []⟩
        root := some ⟨0, 0⟩
        deadlines := [(⟨deadline, 0⟩, ⟨0, 0⟩)]
        next := 2
        agenda := [.activate ⟨1, 0⟩] } := by
  intro deadline
  have isTop : (idle pattern limit patience now).newState CompiledPattern.rootNumber none
      pattern.blank = ⟨0, none, 0, pattern.blank, .within none deadline none⟩ := by
    simp only [newState, idle, CompiledPattern.rootNumber, isBound]
    rfl
  have isOpened := opened_eq pattern limit patience now
  rw [isTop] at isOpened
  generalize opened pattern limit patience now = begun at isOpened
  have live : begun.states.get? ⟨0, 0⟩ =
      some ⟨0, none, 0, pattern.blank, .within none deadline none⟩ := by
    rw [isOpened]
    rfl
  have isNode : begun.nodeOf ⟨0, none, 0, pattern.blank, .within none deadline none⟩ =
      some (.within 1 duration absence) := by
    rw [isOpened]
    exact isBound
  have activated : begun.perform (.activate ⟨0, 0⟩) =
      (begun.schedule ⟨0, 0⟩ ⟨0, none, 0, pattern.blank, .within none deadline none⟩
        deadline).startChild ⟨0, 0⟩ 1 pattern.blank := by
    rw [perform, activate, live]
    simp only [isNode]
  rw [step_of_agenda (by rw [isOpened]), activated, isOpened]
  rfl

/-- After the first step of a time bound its operand opens. -/
theorem step_opened_timeBound
    (plain : CompiledPattern)
    (duration limit patience larger : Nat)
    (now : Int) :
    (opened (plain.behind [.within 1 duration false]) limit larger now).step =
      (Casing.timeBound plain.blank duration (Progress.deadlineAfter now duration) larger).engine
        (opened plain limit patience now) := by
  rw [step_opened_within rfl, opened_eq, CompiledPattern.blank_behind, Casing.engine,
    Engine.mk.injEq]
  refine ⟨rfl, ?_, rfl, rfl, rfl, rfl, rfl, rfl, rfl, rfl, rfl, rfl, rfl⟩
  have inside := @Casing.newState_engine
    (Casing.timeBound plain.blank duration (Progress.deadlineAfter now duration) larger)
    (idle plain limit patience now) CompiledPattern.rootNumber none plain.blank
  simp only [Pool.behind, List.map_toArray, List.map_cons, List.map_nil, PoolSlot.map,
    Option.map_some, ← inside]
  rfl

end Opened

end Engine

end EventQuery
