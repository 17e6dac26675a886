import EventQuery.Proofs.Pattern.Budget
import EventQuery.Proofs.Pattern.Stepping
import EventQuery.Proofs.Pattern.WellFormed

namespace EventQuery

/-!
# How calls end

A call goes on for as long as tasks lead to others.  It ends unless an operand is started again and
again that may report while it starts: all other work is paid for in advance.
-/

namespace CompiledPattern

/-- Every operand that is started again is silent. -/
def RestartsSilently (compiled : CompiledPattern) : Prop :=
  ∀ (number : Nat) (node : PatternNode) (child : Nat),
    compiled.nodes[number]? = some node → node.repeated = some child → compiled.Silent child

end CompiledPattern

namespace Engine

/-- The next task starts an operand again that may report while it starts. -/
def Spins (engine : Engine) : Prop :=
  ∃ task rest child,
    engine.agenda = task :: rest ∧ engine.Restarts task child ∧ ¬engine.pattern.Silent child

/-- Some number of tasks leaves nothing to be done. -/
def Ends (engine : Engine) : Prop :=
  ∃ tasks, (engine.performTasks tasks).isAtRest = true

/-- After some number of tasks no operand is started again that may report while it starts. -/
def StopsSpinning (engine : Engine) : Prop :=
  ∃ tasks, ∀ more, tasks ≤ more → ¬(engine.performTasks more).Spins

/-- An engine that begins to start, or begins with the next call of a run. -/
inductive Begun (pattern : CompiledPattern) (limit : Nat) (now : Int) : Engine → Prop where
  | start (patience : Nat) : Begun pattern limit now (opened pattern limit patience now)
  | call {patience : Nat} {calls : List Call} {engine : Engine} (next : Call) :
      Run pattern limit patience now calls engine →
        Begun pattern limit now (engine.begun next)

section Descent

variable {compiled : CompiledPattern} {law : RowLaw compiled} {moment horizon : Nat}
  {prices : Nat → Price} {engine : Engine}

theorem budget_withAgenda
    (prices : Nat → Price)
    (engine : Engine)
    (agenda tasks : List Task) :
    { engine with agenda }.budget prices tasks = engine.budget prices tasks :=
  rfl

theorem budget_step
    (fair : compiled.AllFair prices)
    (table : compiled.Sound)
    (due : Due law moment horizon engine)
    (noSpin : ¬engine.Spins)
    (busy : engine.isAtRest = false) :
    engine.step.budget prices engine.step.agenda < engine.budget prices engine.agenda := by
  cases isAgenda : engine.agenda with
  | nil => simp [isAtRest, isAgenda] at busy
  | cons task rest =>
      unfold Due at due
      rw [isAgenda] at due
      have isPattern : engine.pattern = compiled := by
        cases task with
        | report receiver sender signal =>
            obtain ⟨gap, coherent, _⟩ := due
            exact coherent.kept.pattern
        | _ => exact due.1.kept.pattern
      have paid := owed_perform fair due fun child restarts => by
        by_contra loud
        exact noSpin ⟨task, rest, child, isAgenda, restarts, isPattern ▸ loud⟩
      have waits : (engine.perform task).1.budget prices rest ≤ engine.budget prices rest := by
        have evolves := (answers_perform table due).evolves
        cases task with
        | report receiver sender signal =>
            obtain ⟨gap, coherent, _, apt⟩ := due
            exact budget_le_of_evolves evolves apt fun ticket isStarted =>
              coherent.fresh.issued ticket (List.mem_append_left _ isStarted)
        | _ =>
            refine budget_le_of_evolves evolves
              (fun other member => due.2 other (List.mem_cons_of_mem _ member)) ?_
            intro ticket isStarted
            refine due.1.fresh.issued ticket (List.mem_append_left _ ?_)
            exact ((List.sublist_cons_self _ _).filterMap _).subset isStarted
      rw [step_of_agenda isAgenda, budget_withAgenda, budget_append, budget_cons]
      rw [owed] at paid
      omega

/-- An engine that spins no more comes to rest. -/
theorem ends_of_no_spin
    (fair : compiled.AllFair prices)
    (table : compiled.Sound)
    (due : Due law moment horizon engine)
    (noSpin : ∀ tasks, ¬(engine.performTasks tasks).Spins) :
    engine.Ends := by
  induction bound : engine.budget prices engine.agenda using Nat.strongRecOn generalizing engine
    with
  | ind budget inductionHypothesis =>
      cases busy : engine.isAtRest with
      | true => exact ⟨0, busy⟩
      | false =>
          have next : ∀ tasks,
              engine.performTasks (tasks + 1) = engine.step.performTasks tasks := by
            intro tasks
            rw [performTasks, if_neg (by simp [busy])]
          obtain ⟨tasks, atRest⟩ := inductionHypothesis _
            (bound ▸ budget_step fair table due (noSpin 0) busy) (due.step table)
            (fun tasks => next tasks ▸ noSpin (tasks + 1)) rfl
          exact ⟨tasks + 1, next tasks ▸ atRest⟩

/-- Performing tasks twice is performing all of them. -/
theorem performTasks_add
    (engine : Engine)
    (earlier later : Nat) :
    engine.performTasks (earlier + later) = (engine.performTasks earlier).performTasks later := by
  rw [performTasks_eq_iterate, performTasks_eq_iterate, performTasks_eq_iterate, Nat.add_comm,
    Function.iterate_add_apply]

/-- An engine comes to rest exactly when it stops spinning. -/
theorem Due.ends_iff
    (fair : compiled.AllFair prices)
    (table : compiled.Sound)
    (due : Due law moment horizon engine) :
    engine.Ends ↔ engine.StopsSpinning := by
  constructor
  · rintro ⟨tasks, atRest⟩
    refine ⟨tasks, fun more order => ?_⟩
    rw [performTasks_eq_iterate] at atRest
    rw [performTasks_eq_iterate, iterate_step_of_isAtRest atRest order]
    rintro ⟨task, rest, _, isAgenda, _⟩
    simp [isAtRest, isAgenda] at atRest
  · rintro ⟨tasks, noSpin⟩
    obtain ⟨more, atRest⟩ :=
      ends_of_no_spin fair table (due.performTasks table tasks) fun more => by
        rw [← performTasks_add]
        exact noSpin (tasks + more) (Nat.le_add_right _ _)
    exact ⟨tasks + more, performTasks_add engine tasks more ▸ atRest⟩

/-- Without operands that may report while they start again, no step is a spin. -/
theorem Due.not_spins
    (due : Due law moment horizon engine)
    (silent : compiled.RestartsSilently) :
    ¬engine.Spins := by
  rintro ⟨task, rest, child, isAgenda, ⟨ticket, state, isRestart, _, _, repeats⟩, loud⟩
  have isPattern : engine.pattern = compiled := by
    unfold Due at due
    rw [isAgenda] at due
    rcases isRestart with rfl | rfl
    · exact due.1.kept.pattern
    · exact due.1.kept.pattern
  obtain ⟨node, atNode, isChild⟩ := Option.bind_eq_some_iff.mp repeats
  rw [nodeOf, isPattern] at atNode
  exact loud (isPattern ▸ silent state.node node child atNode isChild)

end Descent

/--
A call of a run comes to rest exactly when it stops starting operands again that may report while
they start, and it always does when the pattern starts no such operand again.
-/
theorem Begun.ends_iff_stopsSpinning
    {schema : Schema}
    {expr : PatternExpr}
    {compiled : CompiledPattern}
    (success : CompiledPattern.compile schema expr = .ok compiled)
    {limit : Nat}
    {now : Int}
    {engine : Engine}
    (begun : Begun compiled limit now engine) :
    (engine.Ends ↔ engine.StopsSpinning) ∧ (compiled.RestartsSilently → engine.Ends) := by
  have table := CompiledPattern.sound_of_compile success
  obtain ⟨prices, fair⟩ := CompiledPattern.exists_allFair success
  obtain ⟨moment, horizon, due⟩ :
      ∃ moment horizon, Due (RowLaw.width compiled) moment horizon engine := by
    cases begun with
    | start patience =>
        exact ⟨0, 0, due_opened table (RowLaw.width compiled) limit patience now⟩
    | call next run =>
        exact ⟨_, _, run.due_begun table (RowLaw.width compiled) next fun _ => trivial⟩
  refine ⟨due.ends_iff fair table, fun silent => ?_⟩
  exact ends_of_no_spin fair table due fun tasks => (due.performTasks table tasks).not_spins silent

/-- A pattern that matches each tick ends its start: filters are silent. -/
theorem Begun.ends_iff_stopsSpinning_everyTick :
    CompiledPattern.compile tickSchema (.every (.filter ⟨some "t", "Tick", none⟩)) =
        .ok everyTick ∧
      (opened everyTick 10 10 0).StopsSpinning ∧ everyTick.RestartsSilently := by
  have compiles : CompiledPattern.compile tickSchema
      (.every (.filter ⟨some "t", "Tick", none⟩)) = .ok everyTick := rfl
  have begun : Begun everyTick 10 0 (opened everyTick 10 10 0) := .start 10
  refine ⟨compiles, ?_, ?_⟩
  · exact (Begun.ends_iff_stopsSpinning compiles begun).1.mp ⟨2, by cbv⟩
  · intro number node child atNumber repeats
    rcases number with _ | _ | _ <;> cases atNumber
    · cases repeats
      exact .of_first rfl (by simp) (by simp [PatternNode.first])
    · cases repeats

section Recurring

variable {engine : Engine} {top : Ticket} {rest : List Task}

/-- The absence of the absence of a tick, sought again and again, compiled. -/
def doubleAbsence : CompiledPattern :=
  ⟨[.every 1, .negation 2, .negation 3, .filter "Tick" none none], []⟩

/-- A live state runs a node, has a parent, and has come to a progress. -/
def Holds
    (engine : Engine)
    (ticket : Ticket)
    (number : Nat)
    (parent : Option Ticket)
    (progress : Progress) : Prop :=
  ∃ created bindings,
    engine.states.get? ticket = some ⟨number, parent, created, bindings, progress⟩

theorem Holds.ne
    {ticket other : Ticket}
    {number otherNumber : Nat}
    {parent otherParent : Option Ticket}
    {progress otherProgress : Progress}
    (holds : engine.Holds ticket number parent progress)
    (holdsOther : engine.Holds other otherNumber otherParent otherProgress)
    (different : number ≠ otherNumber) :
    ticket ≠ other := by
  rintro rfl
  obtain ⟨_, _, live⟩ := holds
  obtain ⟨_, _, otherLive⟩ := holdsOther
  cases live.symm.trans otherLive
  exact different rfl

/-- The engine of the pattern with some tasks to be done. -/
structure Runs (engine : Engine) (agenda : List Task) : Prop where
  pattern : engine.pattern = doubleAbsence
  sound : engine.states.Sound
  agenda : engine.agenda = agenda

/-- The next step of the engine, when its answer is known. -/
theorem Runs.step
    {task : Task}
    {tasks : List Task}
    {changed : Engine}
    (runs : engine.Runs (task :: rest))
    (answer : engine.perform task = (changed, tasks))
    (pattern : changed.pattern = doubleAbsence)
    (sound : changed.states.Sound) :
    engine.step.Runs (tasks ++ rest) ∧ engine.step.states = changed.states := by
  rw [step_of_agenda runs.agenda, answer]
  exact ⟨⟨pattern, sound, rfl⟩, rfl⟩

private theorem get?_startChild
    (sound : engine.states.Sound)
    {owner : Ticket}
    {number : Nat}
    {parent : Option Ticket}
    {created : Nat}
    {bindings : Row}
    {progress : Progress}
    (live : engine.states.get? owner = some ⟨number, parent, created, bindings, progress⟩)
    (child : Nat)
    (row : Row) :
    ∃ (started : Engine) (ticket : Ticket),
      engine.startChild owner child row = (started, [.activate ticket]) ∧
        started.pattern = engine.pattern ∧ started.states.Sound ∧
          started.Holds ticket child (some owner)
            ((engine.pattern.nodes[child]?.map (Progress.initial engine.now row)).getD .filter) ∧
            started.Holds owner number parent (progress.withChild ticket) ∧
              ∀ {other : Ticket} {held : PatternState}, other ≠ owner →
                engine.states.get? other = some held →
                  started.states.get? other = some held := by
  refine ⟨(engine.create child (some owner) row).1.update owner
      (Progress.withChild (engine.create child (some owner) row).2),
    (engine.create child (some owner) row).2, rfl, rfl, (sound.insert _).modify _ _,
    ⟨_, _, newState_live sound live child row _⟩, ⟨created, bindings, ?_⟩, ?_⟩
  · rw [get?_update_self (get?_create_of_live sound child (some owner) row live)]
    rfl
  · intro other held apart otherLive
    rw [get?_update, if_neg apart]
    exact get?_create_of_live sound child (some owner) row otherLive

/-- The operator `every` starts its operand, for the first time or again. -/
private theorem Runs.startOperand
    {task : Task}
    (runs : engine.Runs (task :: rest))
    (isStart : task = .activate top ∨ task = .rearm top)
    (holds : engine.Holds top 0 none (.every none)) :
    ∃ outer, engine.step.Runs (.activate outer :: rest) ∧
      engine.step.Holds top 0 none (.every (some outer)) ∧
        engine.step.Holds outer 1 (some top) (.negation none) := by
  obtain ⟨created, bindings, live⟩ := holds
  obtain ⟨started, outer, starts, pattern, sound, isNew, isOwner, _⟩ :=
    get?_startChild runs.sound live 1 bindings
  rw [runs.pattern] at pattern isNew
  have answer : engine.perform task = (started, [.activate outer]) := by
    rw [← starts]
    rcases isStart with rfl | rfl
    · simp only [perform, activate, live, nodeOf, runs.pattern]
      rfl
    · simp only [perform, rearm, live, nodeOf, runs.pattern]
      rfl
  obtain ⟨later, same⟩ := runs.step answer pattern sound
  refine ⟨outer, later, ?_, ?_⟩
  · rw [Holds, same]
    exact isOwner
  · rw [Holds, same]
    exact isNew

/-- A negation creates its operand and is going to report. -/
private theorem Runs.activateNegation
    {ticket : Ticket}
    {number child : Nat}
    {parent : Option Ticket}
    (runs : engine.Runs (.activate ticket :: rest))
    (holds : engine.Holds ticket number parent (.negation none))
    (atNumber : doubleAbsence.nodes[number]? = some (.negation child)) :
    ∃ (operand : Ticket) (time : Int) (row : Row),
      engine.step.Runs (.activate operand :: .absence ticket :: rest) ∧
        engine.step.Holds ticket number parent (.negation (some operand)) ∧
          engine.step.Holds operand child (some ticket)
            ((doubleAbsence.nodes[child]?.map (Progress.initial time row)).getD .filter) ∧
            ∀ {other : Ticket} {otherNumber : Nat} {otherParent : Option Ticket}
              {progress : Progress}, other ≠ ticket →
                engine.Holds other otherNumber otherParent progress →
                  engine.step.Holds other otherNumber otherParent progress := by
  obtain ⟨created, bindings, live⟩ := holds
  obtain ⟨started, operand, isStart, pattern, sound, isNew, isOwner, others⟩ :=
    get?_startChild runs.sound live child bindings
  rw [runs.pattern] at pattern isNew
  have answer : engine.perform (.activate ticket) =
      (started, [.activate operand, .absence ticket]) := by
    simp only [perform, activate, live, nodeOf, runs.pattern, atNumber, isStart]
    rfl
  obtain ⟨later, same⟩ := runs.step answer pattern sound
  refine ⟨operand, engine.now, bindings, later, ?_, ?_, ?_⟩
  · rw [Holds, same]
    exact isOwner
  · rw [Holds, same]
    exact isNew
  · rintro other otherNumber otherParent progress apart ⟨otherCreated, otherBindings, otherLive⟩
    rw [Holds, same]
    exact ⟨otherCreated, otherBindings, others apart otherLive⟩

/-- The tasks of leaves and reports leave the states. -/
private theorem Runs.activateLeaf
    {ticket : Ticket}
    {parent : Option Ticket}
    (runs : engine.Runs (.activate ticket :: rest))
    (holds : engine.Holds ticket 3 parent .filter) :
    engine.step.Runs rest ∧ engine.step.states = engine.states := by
  obtain ⟨created, bindings, live⟩ := holds
  have answer : engine.perform (.activate ticket) =
      (engine.await ticket ⟨3, parent, created, bindings, .filter⟩, []) := by
    simp only [perform, activate, live, nodeOf, runs.pattern]
    rfl
  exact runs.step answer runs.pattern runs.sound

/-- A negation reports that nothing has happened yet. -/
private theorem Runs.absence
    {ticket : Ticket}
    {number : Nat}
    {parent : Option Ticket}
    {progress : Progress}
    (runs : engine.Runs (.absence ticket :: rest))
    (holds : engine.Holds ticket number parent progress) :
    ∃ row, engine.step.Runs (.report parent ticket (.matched row false) :: rest) ∧
      engine.step.states = engine.states := by
  obtain ⟨created, bindings, live⟩ := holds
  have answer : engine.perform (.absence ticket) =
      (engine, [.report parent ticket (.matched bindings false)]) := by
    simp only [perform, live]
    rfl
  exact ⟨bindings, runs.step answer runs.pattern runs.sound⟩

/-- The outer negation fails, and all that it started is dropped. -/
private theorem Runs.fail
    {outer inner leaf sender : Ticket}
    {row : Row}
    (runs : engine.Runs (.report (some outer) sender (.matched row false) :: rest))
    (holdsTop : engine.Holds top 0 none (.every (some outer)))
    (holdsOuter : engine.Holds outer 1 (some top) (.negation (some inner)))
    (holdsInner : engine.Holds inner 2 (some outer) (.negation (some leaf)))
    (holdsLeaf : engine.Holds leaf 3 (some inner) .filter) :
    engine.step.Runs (.report (some top) outer (.failed true) :: rest) ∧
      engine.step.Holds top 0 none (.every (some outer)) := by
  have topNotOuter := holdsTop.ne holdsOuter (by decide)
  have topNotInner := holdsTop.ne holdsInner (by decide)
  have topNotLeaf := holdsTop.ne holdsLeaf (by decide)
  have innerNotOuter := holdsInner.ne holdsOuter (by decide)
  have leafNotOuter := holdsLeaf.ne holdsOuter (by decide)
  have leafNotInner := holdsLeaf.ne holdsInner (by decide)
  obtain ⟨topCreated, topBindings, topLive⟩ := holdsTop
  obtain ⟨outerCreated, outerBindings, outerLive⟩ := holdsOuter
  obtain ⟨innerCreated, innerBindings, innerLive⟩ := holdsInner
  obtain ⟨leafCreated, leafBindings, leafLive⟩ := holdsLeaf
  -- The three states are dropped from above, each as the only operand of the one before.
  obtain ⟨withoutOuter, tookOuter⟩ := Pool.exists_take outerLive
  have innerLeft := get?_drop_of_live tookOuter innerLive innerNotOuter
  obtain ⟨withoutInner, tookInner⟩ := Pool.exists_take innerLeft
  have leafLeft := get?_drop_of_live tookInner
    (get?_drop_of_live tookOuter leafLive leafNotOuter) leafNotInner
  obtain ⟨withoutLeaf, tookLeaf⟩ := Pool.exists_take leafLeft
  have topLeft := get?_drop_of_live tookLeaf
    (get?_drop_of_live tookInner (get?_drop_of_live tookOuter topLive topNotOuter) topNotInner)
    topNotLeaf
  have answer : engine.perform (.report (some outer) sender (.matched row false)) =
      (engine.release [outer], [.report (some top) outer (.failed true)]) := by
    simp only [perform, receive, outerLive, nodeOf, runs.pattern]
    change engine.finish outer (.failed true) = _
    simp only [finish, outerLive]
  have released := (release_of_take tookOuter).trans ((release_of_take tookInner).trans
    ((release_of_take tookLeaf).trans (release_nil _)))
  rw [released] at answer
  have sound : withoutLeaf.Sound :=
    Pool.Sound.take (Pool.Sound.take (runs.sound.take tookOuter) tookInner) tookLeaf
  obtain ⟨later, same⟩ := runs.step answer runs.pattern sound
  exact ⟨later, topCreated, topBindings, by rw [same, topLeft]⟩

/-- The operator `every` hears of the failure and is going to start over. -/
private theorem Runs.drop
    {outer : Ticket}
    (runs : engine.Runs (.report (some top) outer (.failed true) :: rest))
    (holdsTop : engine.Holds top 0 none (.every (some outer))) :
    engine.step.Runs (.rearm top :: rest) ∧ engine.step.Holds top 0 none (.every none) := by
  obtain ⟨created, bindings, live⟩ := holdsTop
  have answer : engine.perform (.report (some top) outer (.failed true)) =
      (engine.update top Progress.withoutChild, [.rearm top]) := by
    simp only [perform, receive, live, nodeOf, runs.pattern]
    rfl
  obtain ⟨later, same⟩ := runs.step answer runs.pattern (runs.sound.modify _ _)
  refine ⟨later, created, bindings, ?_⟩
  rw [same, get?_update_self live]
  rfl

/-- The operator `every` comes back to where it started its operand. -/
private theorem Runs.recurs
    {task : Task}
    (runs : engine.Runs (task :: rest))
    (isStart : task = .activate top ∨ task = .rearm top)
    (holds : engine.Holds top 0 none (.every none)) :
    ∃ steps later, 0 < steps ∧ (Engine.step^[steps] engine).Runs (.rearm top :: later) ∧
      (Engine.step^[steps] engine).Holds top 0 none (.every none) := by
  obtain ⟨outer, first, top₁, outer₁⟩ := runs.startOperand isStart holds
  obtain ⟨inner, _, _, second, outer₂, inner₂, others₂⟩ := first.activateNegation outer₁ rfl
  have top₂ := others₂ (top₁.ne outer₁ (by decide)) top₁
  obtain ⟨leaf, _, _, third, inner₃, leaf₃, others₃⟩ := second.activateNegation inner₂ rfl
  have top₃ := others₃ (top₂.ne inner₂ (by decide)) top₂
  have outer₃ := others₃ (outer₂.ne inner₂ (by decide)) outer₂
  obtain ⟨fourth, same₄⟩ := third.activateLeaf leaf₃
  obtain ⟨row, fifth, same₅⟩ := fourth.absence (by rw [Holds, same₄]; exact inner₃)
  have same := same₅.trans same₄
  obtain ⟨sixth, top₆⟩ := fifth.fail (by rw [Holds, same]; exact top₃)
    (by rw [Holds, same]; exact outer₃) (by rw [Holds, same]; exact inner₃)
    (by rw [Holds, same]; exact leaf₃)
  obtain ⟨seventh, top₇⟩ := sixth.drop top₆
  exact ⟨7, _, by decide, seventh, top₇⟩

/-- However many steps are taken, the operator `every` starts its operand once more. -/
private theorem Runs.recursForever
    {task : Task}
    (runs : engine.Runs (task :: rest))
    (isStart : task = .activate top ∨ task = .rearm top)
    (holds : engine.Holds top 0 none (.every none))
    (count : Nat) :
    ∃ steps later, count ≤ steps ∧ (Engine.step^[steps] engine).Runs (.rearm top :: later) ∧
      (Engine.step^[steps] engine).Holds top 0 none (.every none) := by
  induction count with
  | zero =>
      obtain ⟨steps, later, _, runsLater, holdsLater⟩ := runs.recurs isStart holds
      exact ⟨steps, later, Nat.zero_le _, runsLater, holdsLater⟩
  | succ count inductionHypothesis =>
      obtain ⟨steps, later, order, runsLater, holdsLater⟩ := inductionHypothesis
      obtain ⟨more, last, positive, runsLast, holdsLast⟩ := runsLater.recurs (.inr rfl) holdsLater
      rw [← Function.iterate_add_apply] at runsLast holdsLast
      exact ⟨more + steps, last, by omega, runsLast, holdsLast⟩

/-- To seek the absence of an absence again and again never comes to rest, not even at its start. -/
theorem not_isAtRest_start_doubleAbsence :
    CompiledPattern.compile tickSchema
        (.every (.negation (.negation (.filter ⟨none, "Tick", none⟩)))) = .ok doubleAbsence ∧
      ∀ (limit patience : Nat) (now : Int),
        (start doubleAbsence limit patience now).isAtRest = false := by
  refine ⟨rfl, fun limit patience now => ?_⟩
  by_contra atRest
  rw [Bool.not_eq_false, start_eq, settle, performTasks_eq_iterate] at atRest
  have runs : (opened doubleAbsence limit patience now).Runs [.activate ⟨0, 0⟩] :=
    ⟨rfl, Pool.sound_of_full rfl, rfl⟩
  have holds : (opened doubleAbsence limit patience now).Holds ⟨0, 0⟩ 0 none (.every none) :=
    ⟨0, [], Pool.get?_eq_some_iff.mpr rfl⟩
  obtain ⟨steps, later, order, runsLater, _⟩ := runs.recursForever (.inl rfl) holds patience
  have same := iterate_step_of_isAtRest atRest order
  have isAgenda := runsLater.agenda
  rw [same] at isAgenda
  rw [isAtRest, isAgenda] at atRest
  cases atRest

end Recurring

end Engine

end EventQuery
