import EventQuery.Proofs.Pattern.Release

namespace EventQuery

/-!
# Answers to tasks

Performing a task leaves an engine and the tasks that come next.  An answer is right when the engine
is coherent again up to what its tasks will repair: a report of a last match or a failure fills the
gap that its sender left, and a task that starts a state names one that does not run yet.
-/

namespace Task

/-- The state that a task starts. -/
def started? : Task → Option Ticket
  | .activate state => some state
  | .operand _ state => some state
  | _ => none

/-- The states that tasks start, in order. -/
def started (tasks : List Task) : List Ticket := tasks.filterMap started?

@[simp] theorem started_append
    (first second : List Task) :
    started (first ++ second) = started first ++ started second :=
  List.filterMap_append

end Task

namespace Engine

/-- What holds about a task that waits for its turn. -/
def Apt
    {compiled : CompiledPattern}
    (law : RowLaw compiled)
    (moment horizon : Nat)
    (engine : Engine)
    (starting : List Ticket) : Task → Prop
  | .activate _ => True
  | .operand owner ticket =>
      engine.states.Issued ticket ∧
        ∀ {state : PatternState},
          engine.states.get? ticket = some state → state.parent = some owner
  | .absence ticket =>
      engine.states.Issued ticket ∧
        ∀ {state : PatternState}, engine.states.get? ticket = some state →
          ∃ child, compiled.nodes[state.node]? = some (.negation child)
  | .report _ _ _ => False
  | .rearm ticket => engine.states.Issued ticket ∧ ticket ∉ starting
  | .iterate ticket => engine.states.Issued ticket ∧ ticket ∉ starting
  | .offer ticket event =>
      engine.states.Issued ticket ∧ law.admits moment event ∧
        ∀ {state : PatternState}, engine.states.get? ticket = some state →
          state.created < horizon ∧
            ∃ slot predicate,
              compiled.nodes[state.node]? = some (.filter event.kind slot predicate)
  | .expire ticket => engine.states.Issued ticket

/--
A state reports to its parent.  A state that goes on running reports a match; one that is gone
reports its last match, which is never the absence of something, or its failure.
-/
inductive Reports
    {compiled : CompiledPattern}
    (law : RowLaw compiled)
    (moment : Nat)
    (engine : Engine) :
    Option (Ticket × PatternState) → Option Ticket → Ticket → Signal → Prop where
  | running {sender : Ticket} {state : PatternState} {row : Row} :
      engine.states.get? sender = some state →
        law.yield (moment + 1) state.node state.bindings row →
          Reports law moment engine none state.parent sender (.matched row false)
  | last {sender : Ticket} {state : PatternState} {row : Row} :
      law.yield (moment + 1) state.node state.bindings row →
        (∀ child, compiled.nodes[state.node]? ≠ some (.negation child)) →
          Reports law moment engine (some (sender, state)) state.parent sender (.matched row true)
  | failed {sender : Ticket} {state : PatternState} {restartable : Bool} :
      Reports law moment engine (some (sender, state)) state.parent sender (.failed restartable)

/-- An engine is coherent up to what some tasks are going to repair. -/
def Ready
    {compiled : CompiledPattern}
    (law : RowLaw compiled)
    (moment horizon : Nat)
    (engine : Engine)
    (starting : List Ticket) : List Task → Prop
  | .report receiver sender signal :: rest =>
      ∃ gap, engine.Coherent law moment horizon (Task.started rest ++ starting) gap [] ∧
        Reports law moment engine gap receiver sender signal ∧
        ∀ task ∈ rest, Apt law moment horizon engine (Task.started rest ++ starting) task
  | tasks =>
      engine.Coherent law moment horizon (Task.started tasks ++ starting) none [] ∧
        ∀ task ∈ tasks, Apt law moment horizon engine (Task.started tasks ++ starting) task

/-- An engine and the tasks that come next after a task that was performed in another engine. -/
structure Answers
    {compiled : CompiledPattern}
    (law : RowLaw compiled)
    (moment horizon : Nat)
    (before : Engine)
    (starting : List Ticket)
    (answer : Engine × List Task) : Prop where
  evolves : Evolves before answer.1
  fresh : ∀ ticket ∈ Task.started answer.2, ¬before.states.Issued ticket
  ready : Ready law moment horizon answer.1 starting answer.2

section Answers

variable {compiled : CompiledPattern} {law : RowLaw compiled} {moment horizon : Nat}
  {before engine : Engine} {starting : List Ticket}

/-- A task that waits is still right after another was performed. -/
theorem Apt.later
    {task : Task}
    (apt : Apt law moment horizon before starting task)
    (evolves : Evolves before engine)
    {others : List Ticket}
    (fresh : ∀ ticket ∈ others, ticket ∈ starting ∨ ¬before.states.Issued ticket) :
    Apt law moment horizon engine others task := by
  have outside : ∀ {ticket : Ticket},
      before.states.Issued ticket ∧ ticket ∉ starting →
        engine.states.Issued ticket ∧ ticket ∉ others := by
    rintro ticket ⟨issued, notStarting⟩
    refine ⟨evolves.issued issued, fun member => ?_⟩
    rcases fresh ticket member with inStarting | notIssued
    · exact notStarting inStarting
    · exact notIssued issued
  cases task with
  | activate _ =>
      trivial
  | operand owner ticket =>
      obtain ⟨issued, hasParent⟩ := apt
      refine ⟨evolves.issued issued, fun found => ?_⟩
      obtain ⟨earlier, foundEarlier, _, sameParent, _⟩ := evolves.same issued found
      exact sameParent.trans (hasParent foundEarlier)
  | absence ticket =>
      obtain ⟨issued, isNegation⟩ := apt
      refine ⟨evolves.issued issued, fun found => ?_⟩
      obtain ⟨earlier, foundEarlier, sameNode, _⟩ := evolves.same issued found
      rw [sameNode]
      exact isNegation foundEarlier
  | report _ _ _ =>
      exact apt
  | rearm ticket =>
      exact outside apt
  | iterate ticket =>
      exact outside apt
  | offer ticket event =>
      obtain ⟨issued, admitted, waits⟩ := apt
      refine ⟨evolves.issued issued, admitted, fun found => ?_⟩
      obtain ⟨earlier, foundEarlier, sameNode, _, sameCreated⟩ := evolves.same issued found
      rw [sameNode, sameCreated]
      exact waits foundEarlier
  | expire ticket =>
      exact evolves.issued apt

/-- Tasks that wait are ready to be performed in a coherent engine. -/
theorem ready_of_apt
    {tasks : List Task}
    (coherent :
      engine.Coherent law moment horizon (Task.started tasks ++ starting) none [])
    (apt :
      ∀ task ∈ tasks, Apt law moment horizon engine (Task.started tasks ++ starting) task) :
    Ready law moment horizon engine starting tasks := by
  cases tasks with
  | nil =>
      exact ⟨coherent, apt⟩
  | cons first rest =>
      cases first with
      | report receiver sender signal =>
          exact (apt (.report receiver sender signal) (by simp) :).elim
      | _ =>
          exact ⟨coherent, apt⟩

/-- An answer comes before the tasks that wait. -/
theorem Answers.ready_append
    (rest : List Task)
    {tasks : List Task}
    {base : List Ticket}
    (answers :
      Answers law moment horizon before (Task.started rest ++ base) (engine, tasks))
    (includes : ∀ ticket ∈ Task.started rest ++ base, ticket ∈ starting)
    (apt : ∀ task ∈ rest, Apt law moment horizon before starting task) :
    Ready law moment horizon engine base (tasks ++ rest) := by
  have later : ∀ task ∈ rest, ∀ {others : List Ticket},
      (∀ ticket ∈ others, ticket ∈ Task.started tasks ++ (Task.started rest ++ base)) →
        Apt law moment horizon engine others task := by
    intro task member others among
    refine (apt task member).later answers.evolves fun ticket inOthers => ?_
    rcases List.mem_append.mp (among ticket inOthers) with isNew | waits
    · exact .inr (answers.fresh ticket isNew)
    · exact .inl (includes ticket waits)
  have ready := answers.ready
  cases tasks with
  | nil =>
      refine ready_of_apt ready.1 fun task member => ?_
      exact later task member fun ticket waits => waits
  | cons first others =>
      have combined : Task.started (others ++ rest) ++ base =
          Task.started others ++ (Task.started rest ++ base) := by
        simp
      cases first with
      | report receiver sender signal =>
          obtain ⟨gap, coherent, reports, aptOthers⟩ := ready
          refine ⟨gap, combined ▸ coherent, reports, ?_⟩
          intro task member
          change Apt law moment horizon engine (Task.started (others ++ rest) ++ base) task
          rw [combined]
          rcases List.mem_append.mp member with isNew | waits
          · exact aptOthers task isNew
          · exact later task waits (fun ticket inBoth => inBoth)
      | _ =>
          refine ready_of_apt ?_ ?_
          · rw [Task.started_append, List.append_assoc]
            exact ready.1
          · intro task member
            rw [Task.started_append, List.append_assoc]
            rcases List.mem_append.mp member with isNew | waits
            · exact ready.2 task isNew
            · exact later task waits (fun ticket inBoth => inBoth)

end Answers

end Engine

end EventQuery
