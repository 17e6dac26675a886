import EventQuery.Proofs.Pattern.Ending
import EventQuery.Proofs.Pattern.Failures
import EventQuery.Proofs.Pattern.Outcome
import EventQuery.Proofs.Pattern.Standing

namespace EventQuery

/-!
# Patterns that start over

A pattern under `every` starts over whenever its operand is gone, whatever the reason, and neither
fails nor matches for the last time.
-/

namespace Engine

section Every

variable {compiled : CompiledPattern} {law : RowLaw compiled} {moment horizon : Nat}
  {before engine : Engine} {starting : List Ticket} {task : Task} {rest : List Task}

/-- Only the state that a task is about reports, and it reports to its parent. -/
theorem Outcome.of_report
    {answer : Engine × List Task}
    (outcome : Outcome compiled before task answer)
    {receiver : Option Ticket}
    {sender : Ticket}
    {signal : Signal}
    (member : .report receiver sender signal ∈ answer.2) :
    task.subject? = some sender ∧
      ∃ state, before.states.get? sender = some state ∧ receiver = state.parent := by
  cases outcome with
  | concluded _ => cases member
  | rested isSubject _ _ replies _ =>
      obtain ⟨state, reported, live, isReport, _⟩ := replies _ member
      cases isReport
      exact ⟨isSubject, state, live, rfl⟩
  | heard live _ _ _ replies _ =>
      rcases replies _ member with ⟨reported, isReport⟩ | restarted
      · cases isReport
        exact ⟨rfl, _, live, rfl⟩
      · cases restarted
  | continued _ _ _ _ _ _ _ _ _ _ _ =>
      cases List.mem_singleton.mp member
  | opened _ _ _ _ begins only =>
      rcases List.mem_append.mp member with isBegin | isOther
      · obtain ⟨birth, _, isReport⟩ := List.mem_map.mp isBegin
        have started := begins birth
        rw [isReport] at started
        cases started
      · cases only _ isOther

/-- A state under `every` reports matches only, and none of them as its last one. -/
theorem signal_of_every
    (table : compiled.Sound)
    (due : Due law moment horizon engine)
    (isAgenda : engine.agenda = task :: rest)
    (isRestartable : task.IsRestartable)
    {sender : Ticket}
    {state : PatternState}
    {child : Nat}
    (live : engine.states.get? sender = some state)
    (isEvery : compiled.nodes[state.node]? = some (.every child))
    {receiver : Option Ticket}
    {signal : Signal}
    (member : .report receiver sender signal ∈ (engine.perform task).2) :
    ∃ bindings, signal = .matched bindings false := by
  have ready := due
  rw [Due, isAgenda] at ready
  obtain ⟨isSubject, _⟩ := (outcome_perform table ready).of_report member
  have atEngine : engine.nodeOf state = some (.every child) := by
    rw [nodeOf, due.kept.pattern, isEvery]
  obtain ⟨running, isProgress⟩ : ∃ running, state.progress = .every running := by
    obtain ⟨node, atNode, fits⟩ := due.kept.fits live
    cases isEvery.symm.trans atNode
    generalize state.progress = progress at fits
    cases fits
    exact ⟨_, rfl⟩
  have starts : .report receiver sender signal ∉ (engine.activate sender).2 := by
    simp [activate, live, atEngine, startChild]
  cases task with
  | activate ticket =>
      cases isSubject
      exact absurd member starts
  | operand owner ticket =>
      cases isSubject
      simp only [perform] at member
      split at member
      next => exact absurd member starts
      next => cases member
  | absence ticket =>
      cases isSubject
      simp only [perform, live, List.mem_singleton, reportMatch, Task.report.injEq] at member
      exact ⟨state.bindings, member.2.2⟩
  | report owner operand heard =>
      cases isSubject
      simp only [perform, receive, live, atEngine] at member
      cases heard with
      | matched bindings isLast =>
          rcases List.mem_cons.mp member with same | isRearm
          · cases same
            exact ⟨bindings, rfl⟩
          · cases isLast <;> simp at isRearm
      | failed restartable =>
          rw [show restartable = true from isRestartable] at member
          simp [receiveEvery] at member
  | rearm ticket =>
      cases isSubject
      simp only [perform, rearm, live, atEngine, isProgress] at member
      cases running <;> simp [startChild] at member
  | iterate ticket =>
      cases isSubject
      simp [perform, iterate, live, atEngine] at member
  | offer ticket event =>
      cases isSubject
      simp [perform, offer, live, atEngine] at member
  | expire ticket =>
      cases isSubject
      simp [perform, expire, live, isProgress] at member

/-- A state without an operand that starts it over is about to start, or to start it over. -/
def StartsOver (compiled : CompiledPattern) (engine : Engine) (tasks : List Task) : Prop :=
  ∀ {ticket : Ticket} {state : PatternState} {restart : Task},
    engine.states.get? ticket = some state → compiled.RestartedBy state.node ticket restart →
      state.progress.children = [] → ticket ∈ Task.started tasks ∨ restart ∈ tasks

/-- What waits to start over before a task still does when it is about another state. -/
private theorem StartsOver.later
    (startsOver : StartsOver compiled before (task :: rest))
    {ticket : Ticket}
    {state : PatternState}
    {restart : Task}
    (wasLive : before.states.get? ticket = some state)
    (restarted : compiled.RestartedBy state.node ticket restart)
    (childless : state.progress.children = [])
    (notStarted : task.started? ≠ some ticket)
    (isOther : restart ≠ task)
    (tasks : List Task) :
    ticket ∈ Task.started (tasks ++ rest) ∨ restart ∈ tasks ++ rest := by
  rw [Task.started_append]
  rcases startsOver wasLive restarted childless with isStarted | member
  · refine .inl (List.mem_append_right _ ?_)
    obtain ⟨first, among, starts⟩ := List.mem_filterMap.mp isStarted
    rcases List.mem_cons.mp among with rfl | later
    · exact absurd starts notStarted
    · exact List.mem_filterMap.mpr ⟨first, later, starts⟩
  · refine .inr (List.mem_append_right _ ?_)
    exact (List.mem_cons.mp member).resolve_left isOther

/-- An engine that is ready for some tasks is coherent, up to the state whose report comes first. -/
theorem Ready.exists_coherent
    {tasks : List Task}
    (ready : Ready law moment horizon engine starting tasks) :
    ∃ others gap, engine.Coherent law moment horizon others gap [] := by
  cases tasks with
  | nil => exact ⟨_, _, ready.1⟩
  | cons task rest =>
      cases task with
      | report receiver sender signal =>
          obtain ⟨gap, coherent, _⟩ := ready
          exact ⟨_, gap, coherent⟩
      | _ => exact ⟨_, _, ready.1⟩

/-- A state whose operands have just started lists them. -/
private theorem Opens.children_ne_nil
    {after : Engine}
    {ticket : Ticket}
    {owner state : PatternState}
    {births : List Ticket}
    {tasks : List Task}
    (opens : Opens compiled before after ticket owner births)
    (ready : Ready law moment horizon after starting tasks)
    (live : after.states.get? ticket = some state) :
    state.progress.children ≠ [] := by
  obtain ⟨_, _, coherent⟩ := ready.exists_coherent
  obtain ⟨birth, rest, rfl⟩ := List.exists_cons_of_ne_nil opens.nonempty
  obtain ⟨_, held, birthLive, hasParent, _⟩ := opens.born birth List.mem_cons_self
  obtain ⟨lister, node, listerLive, _, adopts, _⟩ :=
    coherent.linked.adopted (.inl birthLive) (by simp) hasParent
  cases live.symm.trans listerLive
  exact List.ne_nil_of_mem adopts.mem_children

/-- A state that starts its operand over keeps to it through every task. -/
theorem StartsOver.perform
    (table : compiled.Sound)
    (ready : Ready law moment horizon engine starting (task :: rest))
    (startsOver : StartsOver compiled engine (task :: rest)) :
    StartsOver compiled (engine.perform task).1 ((engine.perform task).2 ++ rest) := by
  intro ticket state restart live restarted childless
  have readyThen := ready_perform table ready
  have outcome := outcome_perform table ready
  generalize engine.perform task = answer at *
  -- A state that the task is not about is as it was before.
  have unworked : ∀ {worked : Ticket}, Steady engine answer.1 worked → task.subject? = some worked →
      ticket ≠ worked → engine.states.Issued ticket →
        ticket ∈ Task.started (answer.2 ++ rest) ∨ restart ∈ answer.2 ++ rest := by
    intro worked steady isSubject other issued
    refine startsOver.later (steady.others issued other live) restarted childless ?_ ?_ answer.2
    · intro starts
      exact other (Option.some.inj ((Task.subject?_of_started? starts).1.symm.trans isSubject))
    · rintro rfl
      exact other (Option.some.inj (restarted.subject?_eq.symm.trans isSubject))
  cases outcome with
  | concluded sameStates =>
      refine startsOver.later (sameStates ▸ live) restarted childless nofun ?_ _
      rintro rfl
      cases restarted
  | @rested _ worked _ _ isSubject barren _ _ resumes =>
      by_cases isWorked : ticket = worked
      · subst isWorked
        obtain ⟨wasLive, isOther, notStarted⟩ := resumes live restarted childless
        exact startsOver.later wasLive restarted childless (by simp [notStarted]) isOther _
      · exact unworked barren.steady isSubject isWorked (barren.issued live)
  | @heard receiver _ _ _ _ _ _ _ barren _ _ asks =>
      by_cases isWorked : ticket = receiver
      · subst isWorked
        exact .inr (List.mem_append_left _ (asks live restarted childless))
      · exact unworked barren.steady rfl isWorked (barren.issued live)
  | @continued receiver _ birth _ _ _ _ _ _ _ ownerLive atNode _ _ steady _ _ _ _ _ known =>
      rcases known live with issued | isBirth
      · by_cases isWorked : ticket = receiver
        · subst isWorked
          obtain ⟨earlier, wasLive, sameNode, _⟩ := steady.evolves.same issued live
          cases ownerLive.symm.trans wasLive
          exact absurd (sameNode ▸ restarted) (not_restartedBy atNode rfl)
        · exact unworked steady rfl isWorked issued
      · exact .inl (by simp [Task.started, Task.started?, isBirth])
  | @opened _ worked _ births begin others _ isSubject _ _ opens begins _ =>
      rcases opens.known live with issued | isBirth
      · by_cases isWorked : ticket = worked
        · subst isWorked
          exact absurd childless (opens.children_ne_nil readyThen live)
        · exact unworked opens.steady isSubject isWorked issued
      · refine .inl ?_
        rw [Task.started_append, Task.started_append]
        refine List.mem_append_left _ (List.mem_append_left _ ?_)
        exact List.mem_filterMap.mpr ⟨begin ticket, List.mem_map_of_mem isBirth, begins ticket⟩

end Every

section Moments

variable {compiled : CompiledPattern} {law : RowLaw compiled} {moment horizon : Nat}
  {engine : Engine}

/-- What holds in the middle of every call about states that start over. -/
structure Persists
    {compiled : CompiledPattern}
    (law : RowLaw compiled)
    (moment horizon : Nat)
    (engine : Engine) : Prop where
  due : Due law moment horizon engine
  restartable : Restartable engine.agenda
  startsOver : StartsOver compiled engine engine.agenda

theorem Persists.step
    (table : compiled.Sound)
    (persists : Persists law moment horizon engine) :
    Persists law moment horizon engine.step := by
  obtain ⟨due, restartable, startsOver⟩ := persists
  cases isAgenda : engine.agenda with
  | nil =>
      rw [step_of_isAtRest (List.isEmpty_iff.mpr isAgenda)]
      exact ⟨due, restartable, startsOver⟩
  | cons task rest =>
      refine ⟨due.step table, ?_, ?_⟩
      · rw [step_of_agenda isAgenda]
        rw [isAgenda] at restartable
        exact List.forall_mem_append.mpr
          ⟨restartable_perform (restartable task List.mem_cons_self),
            fun next member => restartable next (List.mem_cons_of_mem _ member)⟩
      · rw [step_of_agenda isAgenda]
        rw [isAgenda] at startsOver
        rw [Due, isAgenda] at due
        exact startsOver.perform table due

theorem Persists.performTasks
    (table : compiled.Sound)
    (persists : Persists law moment horizon engine)
    (tasks : Nat) :
    Persists law moment horizon (engine.performTasks tasks) := by
  induction tasks generalizing engine with
  | zero => exact persists
  | succ tasks inductionHypothesis =>
      rw [Engine.performTasks]
      split
      next => exact persists
      next => exact inductionHypothesis (persists.step table)

/-- Between calls every state that starts its operand over runs it. -/
def KeepsOn (compiled : CompiledPattern) (engine : Engine) : Prop :=
  ∀ ticket state restart,
    engine.states.get? ticket = some state → compiled.RestartedBy state.node ticket restart →
      state.progress.children ≠ []

theorem Persists.keepsOn
    (persists : Persists law moment horizon engine)
    (atRest : engine.isAtRest = true) :
    KeepsOn compiled engine := by
  intro ticket state restart live restarted childless
  rcases persists.startsOver live restarted childless with starts | member
  · rw [List.isEmpty_iff.mp atRest] at starts
    cases starts
  · rw [List.isEmpty_iff.mp atRest] at member
    cases member

/-- An engine that begins to start is about to start its root. -/
theorem persists_opened
    (table : compiled.Sound)
    (law : RowLaw compiled)
    (limit patience : Nat)
    (now : Int) :
    Persists law 0 0 (opened compiled limit patience now) where
  due := due_opened table law limit patience now
  restartable := restartable_cons trivial restartable_nil
  startsOver := by
    intro ticket state restart live _ _
    have sound := (coherent_idle law limit patience now).kept.sound
    rcases get?_create_cases sound live with ⟨isRoot, _⟩ | ⟨_, old⟩
    · exact .inl (isRoot ▸ List.mem_singleton_self _)
    · rw [idle, Pool.get?_empty] at old
      cases old

end Moments

section Runs

variable {compiled : CompiledPattern} {limit patience : Nat} {now : Int} {calls : List Call}
  {engine : Engine}

/-- The tasks of a call bring events and times only. -/
theorem isStimulus_begun
    (atRest : engine.isAtRest = true)
    {next : Call}
    {task : Task}
    (member : task ∈ (engine.begun next).agenda) :
    task.isStimulus = true := by
  rw [Engine.isAtRest, List.isEmpty_iff] at atRest
  cases next with
  | event event =>
      rw [begun, atRest] at member
      obtain ⟨ticket, _, rfl⟩ := List.mem_map.mp member
      rfl
  | time told =>
      rw [begun, atRest] at member
      obtain ⟨ticket, _, rfl⟩ := List.mem_map.mp member
      rfl
  | stop => cases member

private theorem restartable_begun
    (atRest : engine.isAtRest = true)
    (next : Call) :
    Restartable (engine.begun next).agenda := by
  intro task member
  have isStimulus := isStimulus_begun atRest member
  cases task with
  | report receiver sender signal => cases isStimulus
  | _ => trivial

/-- A call begins with the states that there are, or with none. -/
private theorem KeepsOn.startsOver_begun
    (keepsOn : KeepsOn compiled engine)
    (next : Call) :
    StartsOver compiled (engine.begun next) (engine.begun next).agenda := by
  intro ticket state restart live restarted childless
  cases next with
  | event event => exact absurd childless (keepsOn _ _ _ live restarted)
  | time told => exact absurd childless (keepsOn _ _ _ live restarted)
  | stop =>
      rw [begun, Engine.stop, Pool.get?_clear] at live
      cases live

theorem Run.persists_begun
    (table : compiled.Sound)
    (run : Run compiled limit patience now calls engine)
    (keepsOn : KeepsOn compiled engine)
    (next : Call) :
    Persists (RowLaw.width compiled) (calls.length + 1) engine.next (engine.begun next) where
  due := run.due_begun table (RowLaw.width compiled) next fun _ => trivial
  restartable := restartable_begun run.atRest next
  startsOver := keepsOn.startsOver_begun next

/-- Between the calls of a run every state that starts its operand over runs it. -/
theorem Run.keepsOn
    (table : compiled.Sound)
    (run : Run compiled limit patience now calls engine) :
    KeepsOn compiled engine := by
  induction run with
  | start returned =>
      have opened := persists_opened table (RowLaw.width compiled) limit patience now
      exact (opened.performTasks table patience).keepsOn returned
  | @call calls engine next before returned inductionHypothesis =>
      by_cases isStop : next = .stop
      · subst isStop
        intro ticket state restart live
        rw [Engine.call, Engine.stop, Pool.get?_clear] at live
        cases live
      · have persists := before.persists_begun table inductionHypothesis next
        rw [call_eq isStop] at returned ⊢
        exact (persists.performTasks table _).keepsOn returned

/-- What holds in the middle of a call holds when it begins. -/
theorem Begun.persists
    (table : compiled.Sound)
    (begun : Begun compiled limit now engine) :
    ∃ moment horizon, Persists (RowLaw.width compiled) moment horizon engine := by
  cases begun with
  | start patience =>
      exact ⟨0, 0, persists_opened table (RowLaw.width compiled) limit patience now⟩
  | call next run => exact ⟨_, _, run.persists_begun table (run.keepsOn table) next⟩

/-- A pattern has a root and is about to report no failure and no last match of it. -/
structure Unending (engine : Engine) : Prop where
  rooted : engine.root ≠ none
  reports :
    ∀ {sender : Ticket} {signal : Signal}, .report none sender signal ∈ engine.agenda →
      ∃ bindings, signal = .matched bindings false

/-- A pattern under `every` does not end by a step. -/
theorem Unending.step
    {law : RowLaw compiled}
    {moment horizon child : Nat}
    (table : compiled.Sound)
    (isEvery : compiled.nodes[CompiledPattern.rootNumber]? = some (.every child))
    (persists : Persists law moment horizon engine)
    (unending : Unending engine) :
    Unending engine.step := by
  cases isAgenda : engine.agenda with
  | nil =>
      rw [step_of_isAtRest (List.isEmpty_iff.mpr isAgenda)]
      exact unending
  | cons task rest =>
      have ready := persists.due
      rw [Due, isAgenda] at ready
      obtain ⟨rooted, reports⟩ := unending
      rw [isAgenda] at reports
      rw [step_of_agenda isAgenda]
      constructor
      · by_cases out : ∃ sender signal, task = .report none sender signal
        · obtain ⟨sender, signal, rfl⟩ := out
          obtain ⟨bindings, rfl⟩ := reports List.mem_cons_self
          exact rooted
        · have same := SameStanding.perform engine fun sender signal isTask =>
            out ⟨sender, signal, isTask⟩
          exact same.root ▸ rooted
      · intro sender signal member
        rcases List.mem_append.mp member with isNew | later
        · obtain ⟨_, state, live, isTop⟩ := (outcome_perform table ready).of_report isNew
          obtain ⟨_, _, coherent⟩ := ready.exists_coherent
          have isRoot := (coherent.linked.top (.inl live) (by simp) isTop.symm).2.1
          have restartable := persists.restartable task (isAgenda ▸ List.mem_cons_self)
          exact signal_of_every table persists.due isAgenda restartable live (isRoot ▸ isEvery)
            isNew
        · exact reports (List.mem_cons_of_mem _ later)

/-- A pattern under `every` does not end by any number of tasks. -/
theorem Unending.performTasks
    {law : RowLaw compiled}
    {moment horizon child : Nat}
    (table : compiled.Sound)
    (isEvery : compiled.nodes[CompiledPattern.rootNumber]? = some (.every child))
    (persists : Persists law moment horizon engine)
    (unending : Unending engine)
    (tasks : Nat) :
    Unending (engine.performTasks tasks) := by
  induction tasks generalizing engine with
  | zero => exact unending
  | succ tasks inductionHypothesis =>
      rw [Engine.performTasks]
      split
      next => exact unending
      next =>
          exact inductionHypothesis (persists.step table) (unending.step table isEvery persists)

/-- A pattern under `every` has a root until it is stopped. -/
theorem Run.root_ne_none
    {child : Nat}
    (table : compiled.Sound)
    (isEvery : compiled.nodes[CompiledPattern.rootNumber]? = some (.every child))
    (run : Run compiled limit patience now calls engine)
    (goesOn : .stop ∉ calls) :
    engine.root ≠ none := by
  induction run with
  | start returned =>
      have persists := persists_opened table (RowLaw.width compiled) limit patience now
      have unending : Unending (opened compiled limit patience now) :=
        ⟨Option.some_ne_none _, by simp [opened]⟩
      exact (unending.performTasks table isEvery persists patience).rooted
  | @call calls engine next before returned inductionHypothesis =>
      have isOther : next ≠ .stop := by
        rintro rfl
        exact goesOn (by simp)
      have persists := before.persists_begun table (before.keepsOn table) next
      have rooted := inductionHypothesis fun member => goesOn (List.mem_append_left _ member)
      have unending : Unending (engine.begun next) := by
        have atRest := List.isEmpty_iff.mp before.atRest
        cases next with
        | event event => exact ⟨rooted, by simp [begun, atRest]⟩
        | time told => exact ⟨rooted, by simp [begun, atRest]⟩
        | stop => exact absurd rfl isOther
      rw [call_eq isOther]
      exact (unending.performTasks table isEvery persists _).rooted

/-- Between the calls of a run a state under `every` runs its operand in exactly one state. -/
theorem Run.exists_operand
    {ticket : Ticket}
    {state : PatternState}
    {child : Nat}
    (table : compiled.Sound)
    (run : Run compiled limit patience now calls engine)
    (live : engine.states.get? ticket = some state)
    (isEvery : compiled.nodes[state.node]? = some (.every child)) :
    ∃ operand held, engine.states.get? operand = some held ∧ held.parent = some ticket ∧
      held.node = child ∧
        ∀ other found, engine.states.get? other = some found → found.parent = some ticket →
          other = operand := by
  have coherent := run.coherent table (RowLaw.width compiled) fun _ => trivial
  have adopted : ∀ {other : Ticket} {found : PatternState},
      engine.states.get? other = some found → found.parent = some ticket →
        state.progress = .every (some other) ∧ found.node = child := by
    intro other found otherLive hasParent
    obtain ⟨owner, node, ownerLive, atNode, adopts, _⟩ :=
      coherent.linked.adopted (.inl otherLive) (by simp) hasParent
    cases live.symm.trans ownerLive
    cases isEvery.symm.trans atNode
    generalize state.progress = progress, found.node = number, found.bindings = row at adopts ⊢
    cases adopts
    exact ⟨rfl, rfl⟩
  obtain ⟨operand, isOperand⟩ :=
    List.exists_mem_of_ne_nil _ (run.keepsOn table _ _ _ live (.every isEvery))
  obtain ⟨_, held, present, hasParent⟩ := coherent.linked.listed live isOperand
  have heldLive := present.resolve_right (by simp)
  obtain ⟨isProgress, isChild⟩ := adopted heldLive hasParent
  refine ⟨operand, held, heldLive, hasParent, isChild, fun other found otherLive isParent => ?_⟩
  cases isProgress.symm.trans (adopted otherLive isParent).1
  rfl

/-- In its next step an engine lets a state send a signal to its parent, or out of the pattern. -/
def Sends (engine : Engine) (sender : Ticket) (signal : Signal) : Prop :=
  ∃ task rest receiver, engine.agenda = task :: rest ∧
    .report receiver sender signal ∈ (engine.perform task).2

/--
Between the calls of a run every state under `every` runs its operand.  In no call does such a state
send a failure or a last match, and a whole pattern under `every` ends only when it is stopped.
-/
theorem Run.every_never_gives_up
    {schema : Schema}
    {expr : PatternExpr}
    (success : CompiledPattern.compile schema expr = .ok compiled)
    (run : Run compiled limit patience now calls engine) :
    (∀ ticket state child, engine.states.get? ticket = some state →
      compiled.nodes[state.node]? = some (.every child) →
        ∃ operand held, engine.states.get? operand = some held ∧ held.parent = some ticket ∧
          held.node = child ∧
            ∀ other found, engine.states.get? other = some found →
              found.parent = some ticket → other = operand) ∧
      (∀ begin tasks sender state child signal, Begun compiled limit now begin →
        (begin.performTasks tasks).states.get? sender = some state →
          compiled.nodes[state.node]? = some (.every child) →
            (begin.performTasks tasks).Sends sender signal →
              ∃ bindings, signal = .matched bindings false) ∧
      (∀ operand, expr = .every operand → .stop ∉ calls → engine.isFinished = false) := by
  have table := CompiledPattern.sound_of_compile success
  refine ⟨fun _ _ _ => run.exists_operand table, ?_, ?_⟩
  · rintro begin tasks sender state child signal begun live isEvery
      ⟨task, rest, receiver, isAgenda, member⟩
    obtain ⟨_, _, persists⟩ := begun.persists table
    have persists := persists.performTasks table tasks
    exact signal_of_every table persists.due isAgenda
      (persists.restartable task (isAgenda ▸ List.mem_cons_self)) live isEvery member
  · rintro operand rfl goesOn
    have listed := (CompiledPattern.listed_of_compile success).1
    rw [CompiledPattern.Listed] at listed
    have rooted := run.root_ne_none table listed.1 goesOn
    rw [isFinished, Option.isNone_eq_false_iff]
    exact Option.isSome_iff_ne_none.mpr rooted

/-- A pattern that has matched a tick waits for the next one. -/
theorem Run.every_never_gives_up_everyTick :
    CompiledPattern.compile tickSchema (.every (.filter ⟨some "t", "Tick", none⟩)) =
        .ok everyTick ∧
      ((Engine.start everyTick 10 10 0).call (.event tick)).1.isFinished = false := by
  have compiles : CompiledPattern.compile tickSchema
      (.every (.filter ⟨some "t", "Tick", none⟩)) = .ok everyTick := rfl
  have run : Run everyTick 10 10 0 [.event tick]
      ((Engine.start everyTick 10 10 0).call (.event tick)).1 :=
    .call (.event tick) (.start rfl) (by cbv)
  exact ⟨compiles, (Run.every_never_gives_up compiles run).2.2 _ rfl (by simp)⟩

end Runs

end Engine

end EventQuery
