import EventQuery.Pattern.Run
import EventQuery.Proofs.Pattern.Performing

namespace EventQuery

namespace Engine

/-!
# Runs of a pattern

A run starts an engine and makes calls to it, each of which returns: the engine is at rest before
the next call.  Whatever a row law says holds throughout every run, and the engine is coherent
between the calls, without states that wait to start, without a gap and without orphans.
-/

/-- A call to a running pattern. -/
inductive Call where
  | event (event : Event)
  | time (now : Int)
  | stop

/-- Make a call: the engine after it, and the matches that it hands out. -/
def call (engine : Engine) : Call → Engine × List Row
  | .event event => engine.advance event
  | .time now => engine.advanceTime now
  | .stop => (engine.stop, [])

/-- An engine that begins to start. -/
def opened (pattern : CompiledPattern) (limit patience : Nat) (now : Int) : Engine :=
  let (created, root) :=
    (idle pattern limit patience now).create CompiledPattern.rootNumber none pattern.blank
  { created with root := some root, agenda := [.activate root] }

/-- An engine that begins with a call. -/
def begun (engine : Engine) : Call → Engine
  | .event event =>
      { engine with
        agenda := engine.agenda ++
          (engine.candidates event.kind).map fun ticket => Task.offer ticket event }
  | .time now =>
      { engine with
        now := max engine.now now
        agenda := engine.agenda ++
          (engine.deadlines.upTo (max engine.now now)).map Task.expire }
  | .stop => engine.stop

/-- An engine is started when it has settled. -/
theorem start_eq
    (pattern : CompiledPattern)
    (limit patience : Nat)
    (now : Int) :
    start pattern limit patience now = (opened pattern limit patience now).settle :=
  rfl

/-- A call settles what it begins and hands out the matches. -/
theorem call_eq
    {engine : Engine}
    {next : Call}
    (goesOn : next ≠ .stop) :
    engine.call next = (engine.begun next).settle.handOut := by
  cases next with
  | stop => exact absurd rfl goesOn
  | _ => rfl

theorem patience_begun
    (engine : Engine)
    (next : Call) :
    (engine.begun next).patience = engine.patience := by
  cases next <;> rfl

/-- A call returns when the engine that began with it settles. -/
theorem isAtRest_call
    (engine : Engine)
    (next : Call) :
    (engine.call next).1.isAtRest = (engine.begun next).settle.isAtRest := by
  cases next with
  | stop =>
      have unchanged : (engine.begun .stop).settle = engine.begun .stop := by
        rw [settle]
        generalize (engine.begun .stop).patience = tasks
        cases tasks <;> rfl
      rw [unchanged]
      rfl
  | _ => rfl

/-- The engine after some calls, all of which returned. -/
inductive Run (pattern : CompiledPattern) (limit patience : Nat) (now : Int) :
    List Call → Engine → Prop where
  | start :
      (start pattern limit patience now).isAtRest = true →
        Run pattern limit patience now [] (start pattern limit patience now)
  | call {calls : List Call} {engine : Engine} (next : Call) :
      Run pattern limit patience now calls engine → (engine.call next).1.isAtRest = true →
        Run pattern limit patience now (calls ++ [next]) (engine.call next).1

section Settle

variable {compiled : CompiledPattern} {law : RowLaw compiled} {moment horizon : Nat}
  {engine : Engine} {starting : List Ticket} {gap : Option (Ticket × PatternState)}

/-- An engine that is ready to perform its agenda. -/
def Due
    {compiled : CompiledPattern}
    (law : RowLaw compiled)
    (moment horizon : Nat)
    (engine : Engine) : Prop :=
  Ready law moment horizon engine [] engine.agenda

theorem Ready.withAgenda
    {tasks : List Task}
    (ready : Ready law moment horizon engine starting tasks)
    (agenda : List Task) :
    Ready law moment horizon { engine with agenda } starting tasks := by
  have coherentToo : ∀ {others : List Ticket} {gap : Option (Ticket × PatternState)},
      engine.Coherent law moment horizon others gap [] →
        Coherent law moment horizon { engine with agenda } others gap [] :=
    fun coherent =>
      { kept := { coherent.kept with }
        linked := { coherent.linked with }
        fresh := { coherent.fresh with }
        indexed := { coherent.indexed with } }
  cases tasks with
  | nil =>
      exact ⟨coherentToo ready.1, by simp⟩
  | cons task rest =>
      cases task with
      | report receiver sender signal =>
          obtain ⟨gap, coherent, reports, apt⟩ := ready
          refine ⟨gap, coherentToo coherent, ?_, apt⟩
          cases reports with
          | running live yields => exact .running live yields
          | last yields noAbsence => exact .last yields noAbsence
          | failed => exact .failed
      | _ =>
          exact ⟨coherentToo ready.1, ready.2⟩

/-- One step leaves an engine ready for its agenda. -/
theorem Due.step
    (table : compiled.Sound)
    (due : Due law moment horizon engine) :
    Due law moment horizon engine.step := by
  unfold Engine.step
  split
  next => exact due
  next task rest isAgenda =>
      unfold Due at due
      rw [isAgenda] at due
      exact (ready_perform table due).withAgenda _

/-- Any number of steps leaves an engine ready for its agenda. -/
theorem Due.performTasks
    (table : compiled.Sound)
    (due : Due law moment horizon engine)
    (tasks : Nat) :
    Due law moment horizon (engine.performTasks tasks) := by
  induction tasks generalizing engine with
  | zero =>
      exact due
  | succ tasks inductionHypothesis =>
      rw [Engine.performTasks]
      split
      next => exact due
      next => exact inductionHypothesis (due.step table)

/-- An engine that is ready and at rest is coherent. -/
theorem Due.coherent
    (due : Due law moment horizon engine)
    (atRest : engine.isAtRest = true) :
    engine.Coherent law moment horizon [] none [] := by
  unfold Due at due
  rw [List.isEmpty_iff.mp atRest] at due
  exact due.1

/-- A coherent engine at rest is ready, for there is nothing that it is to perform. -/
theorem Coherent.due
    (coherent : engine.Coherent law moment horizon [] none [])
    (atRest : engine.isAtRest = true) :
    Due law moment horizon engine := by
  rw [Due, List.isEmpty_iff.mp atRest]
  exact ⟨coherent, List.forall_mem_nil _⟩

/-- Every live state of an engine that is ready for its agenda is in order. -/
theorem Due.kept
    (due : Due law moment horizon engine) :
    engine.Kept law moment horizon := by
  unfold Due at due
  generalize engine.agenda = tasks at due
  cases tasks with
  | nil =>
      exact due.1.kept
  | cons task rest =>
      cases task with
      | report receiver sender signal =>
          obtain ⟨gap, coherent, _⟩ := due
          exact coherent.kept
      | _ =>
          exact due.1.kept

theorem Coherent.next
    (coherent : engine.Coherent law moment horizon [] none []) :
    engine.Coherent law (moment + 1) engine.next [] none [] where
  kept :=
    { coherent.kept with
      horizon_le := Nat.le_refl _
      starts := by
        intro ticket state live
        rw [birth, if_pos (coherent.kept.numbered live)]
        exact coherent.kept.starts_next live
      fits := by
        intro ticket state live
        obtain ⟨node, atNode, fits⟩ := coherent.kept.fits live
        exact ⟨node, atNode, fits.mono (Nat.le_succ _)⟩
      completed := fun row member =>
        law.yield_mono (Nat.le_succ _) (coherent.kept.completed row member) }
  linked :=
    { coherent.linked with
      adopted := by
        intro ticket parent state present outside hasParent
        obtain ⟨owner, node, live, atNode, adopts, order⟩ :=
          coherent.linked.adopted present outside hasParent
        exact ⟨owner, node, live, atNode, adopts.mono (Nat.le_succ _), order⟩ }
  fresh := coherent.fresh
  indexed := coherent.indexed

end Settle

section Calls

variable {compiled : CompiledPattern} {law : RowLaw compiled} {moment horizon : Nat}
  {engine : Engine}

/-- An engine without states is coherent. -/
theorem coherent_idle
    (law : RowLaw compiled)
    (limit patience : Nat)
    (now : Int) :
    (idle compiled limit patience now).Coherent law 0 0 [] none [] := by
  have nothing : ∀ ticket, (idle compiled limit patience now).states.get? ticket = none :=
    Pool.get?_empty
  constructor
  case kept =>
      constructor
      case pattern => rfl
      case sound => exact Pool.sound_of_full rfl
      case horizon_le => exact Nat.le_refl _
      case completed => simp [idle]
      all_goals simp [nothing]
  case linked =>
      constructor
      case rooted => simp [idle]
      all_goals simp [Present, nothing]
  case fresh => constructor <;> simp
  case indexed =>
      constructor
      case filters => simp [Waits, idle]
      case deadlines => simp [Waits, idle]
      case filtersSorted => exact List.Pairwise.nil
      case deadlinesSorted => exact List.Pairwise.nil
      case leaves => rfl

/-- An orphan without a parent becomes the root of a pattern that has none. -/
theorem Coherent.enthrone
    {starting : List Ticket}
    {ticket : Ticket}
    {state : PatternState}
    (coherent : engine.Coherent law moment horizon starting none [ticket])
    (rootless : engine.root = none)
    (live : engine.states.get? ticket = some state)
    (isTop : state.parent = none)
    (isRoot : state.node = CompiledPattern.rootNumber)
    (isBlank : state.bindings = compiled.blank) :
    Coherent law moment horizon { engine with root := some ticket } starting none [] where
  kept := { coherent.kept with }
  linked := by
    constructor
    case top =>
        intro other held present _ noParent
        by_cases same : other = ticket
        · subst same
          rw [coherent.linked.present_unique present (.inl live)]
          exact ⟨rfl, isRoot, isBlank⟩
        · have wasRoot := (coherent.linked.top present (by simpa using same) noParent).1
          rw [rootless] at wasRoot
          cases wasRoot
    case adopted =>
        intro other parent held present _ hasParent
        have different : other ∉ [ticket] := by
          intro member
          rw [List.mem_singleton.mp member] at present
          cases coherent.linked.present_unique present (.inl live)
          rw [isTop] at hasParent
          cases hasParent
        exact coherent.linked.adopted present different hasParent
    case listed =>
        intro parent other owner ownerLive member
        obtain ⟨_, rest⟩ := coherent.linked.listed ownerLive member
        exact ⟨by simp, rest⟩
    case rooted =>
        intro other isOther
        cases isOther
        exact ⟨by simp, state, .inl live, isTop⟩
    case gapSpent =>
        intro other held isGap
        cases isGap
  fresh := { coherent.fresh with }
  indexed := { coherent.indexed with }

/-- An engine that begins to start is ready for it. -/
theorem due_opened
    (table : compiled.Sound)
    (law : RowLaw compiled)
    (limit patience : Nat)
    (now : Int) :
    Due law 0 0 (opened compiled limit patience now) := by
  have coherent := coherent_idle law limit patience now
  have sound := coherent.kept.sound
  have atRoot := List.getElem?_eq_getElem table.nonempty
  have created := coherent.create CompiledPattern.rootNumber none atRoot
    (law.start_mono (Nat.zero_le 1) law.start_blank)
  have crowned := created.enthrone rfl (get?_create_self sound _ none _) rfl rfl rfl
  have ready : Ready law 0 0 _ [] [.activate _] := ⟨crowned, by simp [Apt]⟩
  exact ready.withAgenda _

/-- An engine at rest is ready for an event that it is shown. -/
theorem Coherent.due_event
    (coherent : engine.Coherent law moment engine.next [] none [])
    (atRest : engine.isAtRest = true)
    {event : Event}
    (admitted : law.admits moment event) :
    Due law moment engine.next (engine.begun (.event event)) := by
  rw [begun, List.isEmpty_iff.mp atRest, List.nil_append]
  have startsNothing : Task.started
      ((engine.candidates event.kind).map fun ticket => Task.offer ticket event) = [] := by
    simp [Task.started, Task.started?]
  refine Ready.withAgenda (ready_of_apt ?_ ?_) _
  · rw [startsNothing]
    exact coherent
  · intro task member
    obtain ⟨ticket, isCandidate, isTask⟩ := List.mem_map.mp member
    obtain ⟨⟨rank, other⟩, inIndex, isFilter⟩ := List.mem_filterMap.mp isCandidate
    obtain ⟨_, state, live, _⟩ := (coherent.indexed.filters rank other).mp inIndex
    simp only [live, Option.bind_some] at isFilter
    split at isFilter
    next awaited slot predicate atEngine =>
        rw [nodeOf, coherent.kept.pattern] at atEngine
        split at isFilter
        next same =>
            cases isFilter
            subst isTask
            refine ⟨.inl ⟨state, live⟩, admitted, fun found => ?_⟩
            cases live.symm.trans found
            exact ⟨coherent.kept.numbered live, slot, predicate, same ▸ atEngine⟩
        next => cases isFilter
    next => cases isFilter

/-- An engine at rest is ready for a point of time that it is told. -/
theorem Coherent.due_time
    (coherent : engine.Coherent law moment engine.next [] none [])
    (atRest : engine.isAtRest = true)
    (told : Int) :
    Due law moment engine.next (engine.begun (.time told)) := by
  rw [begun, List.isEmpty_iff.mp atRest, List.nil_append]
  generalize max engine.now told = present
  have startsNothing : Task.started ((engine.deadlines.upTo present).map Task.expire) = [] := by
    simp [Task.started, Task.started?]
  have later : Coherent law moment engine.next { engine with now := present } [] none [] :=
    { kept := { coherent.kept with }
      linked := { coherent.linked with }
      fresh := { coherent.fresh with }
      indexed := { coherent.indexed with } }
  have ready : Ready law moment engine.next { engine with now := present } []
      ((engine.deadlines.upTo present).map Task.expire) := by
    refine ready_of_apt ?_ ?_
    · rw [startsNothing]
      exact later
    · intro task member
      obtain ⟨ticket, isDue, isTask⟩ := List.mem_map.mp member
      obtain ⟨rank, inIndex, _⟩ := StateIndex.mem_upTo.mp isDue
      obtain ⟨_, state, live, _⟩ := (coherent.indexed.deadlines rank ticket).mp inIndex
      subst isTask
      exact .inl ⟨state, live⟩
  exact ready.withAgenda _

/-- An engine that was stopped is coherent: nothing is left. -/
theorem Coherent.stop
    (coherent : engine.Coherent law moment horizon [] none []) :
    engine.stop.Coherent law moment horizon [] none [] := by
  have nothing : ∀ ticket, engine.stop.states.get? ticket = none :=
    engine.states.get?_clear
  constructor
  case kept =>
      constructor
      case pattern => exact coherent.kept.pattern
      case sound => exact coherent.kept.sound.clear
      case horizon_le => exact coherent.kept.horizon_le
      case completed => simp [Engine.stop]
      all_goals simp [nothing]
  case linked =>
      constructor
      case rooted => simp [Engine.stop]
      all_goals simp [Present, nothing]
  case fresh => constructor <;> simp
  case indexed =>
      constructor
      case filters => simp [Waits, Engine.stop]
      case deadlines => simp [Waits, Engine.stop]
      case filtersSorted => exact List.Pairwise.nil
      case deadlinesSorted => exact List.Pairwise.nil
      case leaves => simp [Engine.stop]

end Calls

section Run

variable {compiled : CompiledPattern} {limit patience : Nat} {now : Int} {calls : List Call}
  {engine : Engine}

/-- Matches that are handed out leave an engine coherent. -/
theorem Due.handOut
    {law : RowLaw compiled}
    {moment horizon : Nat}
    (due : Due law moment horizon engine)
    (atRest : engine.isAtRest = true) :
    engine.handOut.1.Coherent law moment horizon [] none [] := by
  have coherent := due.coherent atRest
  exact
    { kept := { coherent.kept with completed := by simp [Engine.handOut] }
      linked := { coherent.linked with }
      fresh := { coherent.fresh with }
      indexed := { coherent.indexed with } }

/-- The events of a run are shown in the order of its calls, the first call at the moment one. -/
def Admitted (law : RowLaw compiled) (calls : List Call) : Prop :=
  ∀ {place : Nat} {event : Event},
    calls[place]? = some (.event event) → law.admits (place + 1) event

/-- A call to a coherent engine leaves it coherent and hands out matches. -/
theorem Coherent.call
    {law : RowLaw compiled}
    {moment : Nat}
    (table : compiled.Sound)
    (coherent : engine.Coherent law moment engine.next [] none [])
    (atRest : engine.isAtRest = true)
    (next : Call)
    (admitted : ∀ {event : Event}, next = .event event → law.admits moment event) :
    ((engine.call next).1.isAtRest = true →
        (engine.call next).1.Coherent law moment engine.next [] none []) ∧
      ∀ row ∈ (engine.call next).2,
        law.yield (moment + 1) CompiledPattern.rootNumber compiled.blank row := by
  cases next with
  | event event =>
      have due := (coherent.due_event atRest (admitted rfl)).performTasks table engine.patience
      exact ⟨fun returned => due.handOut returned, due.kept.completed⟩
  | time present =>
      have due := (coherent.due_time atRest present).performTasks table engine.patience
      exact ⟨fun returned => due.handOut returned, due.kept.completed⟩
  | stop =>
      exact ⟨fun _ => coherent.stop, by simp [Engine.call]⟩

theorem Run.atRest
    (run : Run compiled limit patience now calls engine) :
    engine.isAtRest = true := by
  cases run with
  | start returned => exact returned
  | call next _ returned => exact returned

/-- Between the calls of a run the engine is coherent. -/
theorem Run.coherent
    (table : compiled.Sound)
    (law : RowLaw compiled)
    (run : Run compiled limit patience now calls engine)
    (admitted : Admitted law calls) :
    engine.Coherent law (calls.length + 1) engine.next [] none [] := by
  induction run with
  | start returned =>
      have due := (due_opened table law limit patience now).performTasks table patience
      exact (due.coherent returned).next
  | @call calls engine next before returned inductionHypothesis =>
      have coherent := inductionHypothesis fun {place event} atPlace =>
        admitted (by
          rw [List.getElem?_append_left (List.getElem?_eq_some_iff.mp atPlace).1]
          exact atPlace)
      rw [List.length_append, List.length_singleton]
      refine ((coherent.call table before.atRest next ?_).1 returned).next
      intro event isEvent
      exact admitted (by simp [isEvent])

/-- The engine that begins with the next call of a run is ready for it. -/
theorem Run.due_begun
    (table : compiled.Sound)
    (law : RowLaw compiled)
    (run : Run compiled limit patience now calls engine)
    (next : Call)
    (admitted : Admitted law (calls ++ [next])) :
    Due law (calls.length + 1) engine.next (engine.begun next) := by
  have coherent := run.coherent table law fun {place event} atPlace =>
    admitted (by
      rw [List.getElem?_append_left (List.getElem?_eq_some_iff.mp atPlace).1]
      exact atPlace)
  cases next with
  | event event =>
      exact coherent.due_event run.atRest (admitted (by simp))
  | time present =>
      exact coherent.due_time run.atRest present
  | stop =>
      exact ⟨coherent.stop, by simp [begun, Engine.stop]⟩

/-- The matches that a run hands out are as the law says. -/
theorem Run.handsOut
    (table : compiled.Sound)
    (law : RowLaw compiled)
    (run : Run compiled limit patience now calls engine)
    (next : Call)
    (admitted : Admitted law (calls ++ [next])) :
    ∀ row ∈ (engine.call next).2,
      law.yield (calls.length + 2) CompiledPattern.rootNumber compiled.blank row := by
  have coherent := run.coherent table law fun {place event} atPlace =>
    admitted (by
      rw [List.getElem?_append_left (List.getElem?_eq_some_iff.mp atPlace).1]
      exact atPlace)
  refine (coherent.call table run.atRest next ?_).2
  intro event isEvent
  exact admitted (by simp [isEvent])

end Run

end Engine

/-!
## Moments of a run

A moment is an engine before, between or after the tasks of a call.  With each moment goes what every
state has heard of up to then: the matches that were reported to it, in order.  Tickets are never
handed out twice, so that the matches under a ticket are those of one state.
-/

/-- The match that a task reports to a state. -/
def Task.heardBy (ticket : Ticket) : Task → Option Row
  | .report (some receiver) _ (.matched found _) => if receiver = ticket then some found else none
  | _ => none

theorem Task.heardBy_eq_none
    {task : Task}
    {ticket : Ticket}
    (other : ∀ sender signal, task ≠ .report (some ticket) sender signal) :
    task.heardBy ticket = none := by
  unfold Task.heardBy
  split
  next receiver sender found isLast =>
      rw [if_neg]
      rintro rfl
      exact other sender _ rfl
  next => rfl

namespace Engine

/-- What the states have heard of after the next task of an engine. -/
def recording (engine : Engine) (heard : Ticket → List Row) (ticket : Ticket) : List Row :=
  heard ticket ++ (engine.agenda.head?.bind (Task.heardBy ticket)).toList

/-- The moments of runs, with the calls made and the matches heard of up to then. -/
inductive Moment (pattern : CompiledPattern) (limit patience : Nat) (now : Int) :
    List Call → (Ticket → List Row) → Engine → Prop where
  | opened : Moment pattern limit patience now [] (fun _ => []) (opened pattern limit patience now)
  | step {calls : List Call} {heard : Ticket → List Row} {engine : Engine} :
      Moment pattern limit patience now calls heard engine →
        Moment pattern limit patience now calls (engine.recording heard) engine.step
  | handOut {calls : List Call} {heard : Ticket → List Row} {engine : Engine} :
      Moment pattern limit patience now calls heard engine → engine.isAtRest = true →
        Moment pattern limit patience now calls heard engine.handOut.1
  | call {calls : List Call} {heard : Ticket → List Row} {engine : Engine} (next : Call) :
      Moment pattern limit patience now calls heard engine → engine.isAtRest = true →
        Moment pattern limit patience now (calls ++ [next]) heard (engine.begun next)

section Moments

variable {compiled : CompiledPattern} {limit patience : Nat} {now : Int} {calls : List Call}
  {heard : Ticket → List Row} {engine : Engine}

/-- The tasks of a call lead from moment to moment. -/
theorem Moment.performTasks
    (moment : Moment compiled limit patience now calls heard engine)
    (tasks : Nat) :
    ∃ later, Moment compiled limit patience now calls later (engine.performTasks tasks) := by
  induction tasks generalizing heard engine with
  | zero => exact ⟨heard, moment⟩
  | succ tasks inductionHypothesis =>
      rw [Engine.performTasks]
      split
      next => exact ⟨heard, moment⟩
      next => exact inductionHypothesis moment.step

/-- Every run is at some moment after its calls. -/
theorem Run.exists_moment
    (run : Run compiled limit patience now calls engine) :
    ∃ heard, Moment compiled limit patience now calls heard engine := by
  induction run with
  | start returned => exact Moment.opened.performTasks patience
  | @call calls engine next before returned inductionHypothesis =>
      obtain ⟨heard, moment⟩ := inductionHypothesis
      have begins := moment.call next before.atRest
      by_cases isStop : next = .stop
      · subst isStop
        exact ⟨heard, begins⟩
      · rw [call_eq isStop] at returned ⊢
        obtain ⟨later, settled⟩ := begins.performTasks (engine.begun next).patience
        exact ⟨later, settled.handOut returned⟩

/-- At every moment an engine is ready to perform its agenda. -/
theorem Moment.due
    (table : compiled.Sound)
    (law : RowLaw compiled)
    (admits : ∀ now event, law.admits now event)
    (moment : Moment compiled limit patience now calls heard engine) :
    ∃ number horizon, Due law number horizon engine := by
  induction moment with
  | opened => exact ⟨0, 0, due_opened table law limit patience now⟩
  | step _ inductionHypothesis =>
      obtain ⟨number, horizon, due⟩ := inductionHypothesis
      exact ⟨number, horizon, due.step table⟩
  | @handOut calls heard engine _ atRest inductionHypothesis =>
      obtain ⟨number, horizon, due⟩ := inductionHypothesis
      exact ⟨number, horizon, (due.handOut atRest).due atRest⟩
  | @call calls heard engine next _ atRest inductionHypothesis =>
      obtain ⟨number, horizon, due⟩ := inductionHypothesis
      have coherent := (due.coherent atRest).next
      refine ⟨number + 1, engine.next, ?_⟩
      cases next with
      | event event => exact coherent.due_event atRest (admits _ event)
      | time told => exact coherent.due_time atRest told
      | stop => exact ⟨coherent.stop, by simp [begun, Engine.stop]⟩

end Moments

end Engine

end EventQuery
