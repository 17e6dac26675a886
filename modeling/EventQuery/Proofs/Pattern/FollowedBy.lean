import EventQuery.Proofs.Pattern.Follows

namespace EventQuery

/-!
# Started matches as a list

A pattern that starts anew with every event of one type, each followed by an event of another, is a
list of the events that have started a match.  This module shows that the engine of the pattern does
exactly what that list does.
-/

namespace Engine

section Tasks

variable {engine : Engine} {ticket : Ticket} {state : PatternState} {states : Pool PatternState}

/-- A condition that is tested yields whether it holds. -/
theorem test_holds
    (engine : Engine)
    (condition : Node)
    (row : Row) :
    (engine.test condition row).2 = Node.holds (some condition) row := by
  unfold test Node.holds
  split
  next isOk => simp only [isOk]
  next isError => simp only [isError]

/-- A filter without operands that finishes is dropped and reports. -/
theorem finish_leaf
    (took : engine.states.take ticket = some (state, states))
    (childless : state.progress.children = [])
    (signal : Signal) :
    engine.finish ticket signal =
      (engine.drop state states, [.report state.parent ticket signal]) := by
  have released : engine.release [ticket] = engine.drop state states := by
    rw [release_of_take took, childless, release_nil]
  simp only [finish, Pool.get?_of_take took, released]

/-- A filter that is shown an event reports it when its predicate holds, and else waits on. -/
theorem offer_filter
    (event : Event)
    {eventType : String}
    {slot : Option Nat}
    {predicate : Option Node}
    (took : engine.states.take ticket = some (state, states))
    (atNode : engine.nodeOf state = some (.filter eventType slot predicate))
    (childless : state.progress.children = []) :
    ∃ faults,
      engine.offer ticket event =
        if Node.holds predicate (state.bindings ++ [.event event]) then
          (drop { engine with faults } state states,
            [.report state.parent ticket (.matched (bindEvent state.bindings slot event) true)])
        else ({ engine with faults }, []) := by
  have live := Pool.get?_of_take took
  cases predicate with
  | none =>
      refine ⟨engine.faults, ?_⟩
      simp only [offer, live, atNode, Node.holds, ↓reduceIte]
      exact finish_leaf took childless _
  | some condition =>
      obtain ⟨faults, tested⟩ :=
        test_frame engine condition (state.bindings ++ [Value.event event])
      refine ⟨faults, ?_⟩
      simp only [offer, live, atNode, test_holds, tested]
      by_cases holds : Node.holds (some condition) (state.bindings ++ [.event event]) = true
      · have stillTook : ({ engine with faults } : Engine).states.take ticket =
            some (state, states) := took
        rw [if_pos holds, if_pos holds]
        exact finish_leaf stillTook childless _
      · rw [if_neg holds, if_neg holds]

end Tasks

/-- The engine in the middle of a call, with what is to be done and what has been completed. -/
structure Stage
    (compiled : CompiledPattern)
    (limit patience : Nat)
    (engine : Engine)
    (top each : Ticket)
    (running : Option Ticket)
    (rights : List Ticket)
    (starter : Option (Ticket × Nat))
    (started : List Started)
    (agenda : List Task)
    (completed : List Row) : Prop where
  follows : Follows compiled limit patience engine top each running rights starter started
  isAgenda : engine.agenda = agenda
  isCompleted : engine.completed = completed

namespace Stage

open Follows

variable {compiled : CompiledPattern} {firstType secondType : String}
  {first second : Option Node} {limit patience : Nat} {engine : Engine} {top each : Ticket}
  {running : Option Ticket} {rights : List Ticket} {starter : Option (Ticket × Nat)}
  {started : List Started} {rest : List Task} {completed : List Row} {event : Event}

/-- A node of the pattern is found by its number. -/
theorem nodeOf
    (pattern : compiled.FollowedBy firstType secondType first second)
    (follows : Follows compiled limit patience engine top each running rights starter started)
    (state : PatternState) :
    engine.nodeOf state =
      [PatternNode.sequence 1 3, .every 2, .filter firstType (some 0) first,
        .filter secondType (some 1) second][state.node]? := by
  rw [Engine.nodeOf, follows.pattern, pattern.nodes]

/-- A step whose answer is known leads to the stage of the answer. -/
theorem of_answer
    {changed : Engine}
    {task : Task}
    {tasks : List Task}
    {completedNow : List Row}
    (isAgenda : engine.agenda = task :: rest)
    (answer : engine.perform task = (changed, tasks))
    (follows :
      Follows compiled limit patience changed top each running rights starter started)
    (isCompleted : changed.completed = completedNow) :
    Stage compiled limit patience engine.step top each running rights starter started
      (tasks ++ rest) completedNow := by
  rw [step_of_agenda isAgenda, answer]
  exact ⟨follows.withOutcome _ _ _, rfl, isCompleted⟩

/-- The filter that starts matches waits on when its predicate does not hold. -/
theorem offerStarter_fails
    (pattern : compiled.FollowedBy firstType secondType first second)
    {entry : Ticket × Nat}
    (stage :
      Stage compiled limit patience engine top each running rights (some entry) started
        (.offer entry.1 event :: rest) completed)
    (fails : Node.holds first (unbound ++ [.event event]) = false) :
    Stage compiled limit patience engine.step top each running rights (some entry) started rest
      completed := by
  obtain ⟨states, took⟩ := Pool.exists_take (stage.follows.starterLive entry rfl)
  obtain ⟨faults, offered⟩ := offer_filter event took
    (nodeOf pattern stage.follows _) rfl
  exact of_answer stage.isAgenda (offered.trans (if_neg (Bool.eq_false_iff.mp fails)))
    (stage.follows.withOutcome _ _ _) stage.isCompleted

/-- The filter that starts matches reports an event on which its predicate holds. -/
theorem offerStarter_matches
    (pattern : compiled.FollowedBy firstType secondType first second)
    {entry : Ticket × Nat}
    (stage :
      Stage compiled limit patience engine top each running rights (some entry) started
        (.offer entry.1 event :: rest) completed)
    (holds : Node.holds first (unbound ++ [.event event]) = true) :
    Stage compiled limit patience engine.step top each running rights none started
      (.report (some each) entry.1 (.matched [.event event, .null] true) :: rest) completed := by
  obtain ⟨states, took⟩ := Pool.exists_take (stage.follows.starterLive entry rfl)
  obtain ⟨faults, offered⟩ := offer_filter event took
    (nodeOf pattern stage.follows _) rfl
  refine of_answer stage.isAgenda (offered.trans (if_pos holds))
    (dropStarter (stage.follows.withOutcome _ _ _) took) ?_
  rw [drop_frame]
  exact stage.isCompleted

/-- The operator `every` passes the match on and is going to start over. -/
theorem reportToEach
    (pattern : compiled.FollowedBy firstType secondType first second)
    {sender : Ticket}
    {row : Row}
    (stage :
      Stage compiled limit patience engine top each running rights none started
        (.report (some each) sender (.matched row true) :: rest) completed) :
    Stage compiled limit patience engine.step top each none rights none started
      (.report (some top) each (.matched row false) :: .rearm each :: rest) completed := by
  obtain ⟨created, live⟩ := stage.follows.eachLive
  have answer : engine.perform (.report (some each) sender (.matched row true)) =
      (engine.update each Progress.withoutChild,
        [.report (some top) each (.matched row false), .rearm each]) := by
    simp only [perform, receive, live, nodeOf pattern stage.follows]
    rfl
  exact of_answer stage.isAgenda answer (stage.follows.updateEach _ _ rfl) stage.isCompleted

/-- The sequence refuses a further match when too many leaves are alive. -/
theorem reportToTop_refuses
    (pattern : compiled.FollowedBy firstType secondType first second)
    {row : Row}
    (stage :
      Stage compiled limit patience engine top each none rights none started
        (.report (some top) each (.matched row false) :: rest) completed)
    (full : limit ≤ started.length) :
    Stage compiled limit patience engine.step top each none rights none started rest
      completed := by
  obtain ⟨created, live⟩ := stage.follows.topLive
  have isFull : engine.limit ≤ engine.leaves := by
    rw [stage.follows.limit, stage.follows.leaves]
    simpa using full
  have answer : engine.perform (.report (some top) each (.matched row false)) = (engine, []) := by
    simp only [perform, receive, live, nodeOf pattern stage.follows, List.getElem?_cons_zero,
      ↓reduceIte, receiveLeft, dropChildIf, Bool.false_eq_true, isFull, failIfExhausted,
      Option.map_some]
  exact of_answer stage.isAgenda answer stage.follows stage.isCompleted

/-- A filter that starts to run waits for events. -/
theorem activate_filter
    {ticket : Ticket}
    {state : PatternState}
    {eventType : String}
    {slot : Option Nat}
    {predicate : Option Node}
    (live : engine.states.get? ticket = some state)
    (atNode : engine.nodeOf state = some (.filter eventType slot predicate)) :
    engine.activate ticket = (engine.await ticket state, []) := by
  simp only [activate, live, atNode]

/-- The sequence starts its right operand with the match, and the new filter waits. -/
theorem reportToTop_starts
    (pattern : compiled.FollowedBy firstType secondType first second)
    (stage :
      Stage compiled limit patience engine top each none rights none started
        (.report (some top) each (.matched [.event event, .null] false) :: rest) completed)
    (room : started.length < limit) :
    ∃ entry : Started, entry.event = event ∧
      Stage compiled limit patience engine.step.step top each none (rights ++ [entry.ticket])
        none (started ++ [entry]) rest completed := by
  obtain ⟨topCreated, live⟩ := stage.follows.topLive
  have sound := stage.follows.sound
  have hasRoom : ¬engine.limit ≤ engine.leaves := by
    rw [stage.follows.limit, stage.follows.leaves]
    simpa using room
  have newLive := newState_live sound live 3 [.event event, .null]
    (Progress.withRight (engine.create 3 (some top) [.event event, .null]).2)
  have isStarted : engine.newState 3 (some top) [.event event, .null] =
      startedState top engine.next event := by
    simp [newState, startedState, stage.follows.pattern, pattern.nodes, Progress.initial]
  rw [isStarted] at newLive
  have follows := (stage.follows.create 3 (some top) [.event event, .null]).updateTop
    (Progress.withRight (engine.create 3 (some top) [.event event, .null]).2)
    (rights ++ [(engine.create 3 (some top) [.event event, .null]).2]) rfl
  have answer : engine.perform (.report (some top) each (.matched [.event event, .null] false)) =
      ((engine.create 3 (some top) [.event event, .null]).1.update top
          (Progress.withRight (engine.create 3 (some top) [.event event, .null]).2),
        [.activate (engine.create 3 (some top) [.event event, .null]).2]) := by
    simp only [perform, receive, live, nodeOf pattern stage.follows, List.getElem?_cons_zero,
      ↓reduceIte, receiveLeft, dropChildIf, Bool.false_eq_true, hasRoom]
  have isNext : ((engine.create 3 (some top) [.event event, .null]).1.update top
      (Progress.withRight (engine.create 3 (some top) [.event event, .null]).2)).next =
        engine.next + 1 :=
    rfl
  have isCompleted : ((engine.create 3 (some top) [.event event, .null]).1.update top
      (Progress.withRight (engine.create 3 (some top) [.event event, .null]).2)).completed =
        completed :=
    stage.isCompleted
  generalize (engine.create 3 (some top) [.event event, .null]).1.update top
    (Progress.withRight (engine.create 3 (some top) [.event event, .null]).2) = changed
      at newLive follows answer isNext isCompleted
  generalize (engine.create 3 (some top) [.event event, .null]).2 = ticket
    at newLive follows answer
  have between := of_answer stage.isAgenda answer follows isCompleted
  have isStep : engine.step = { changed with agenda := .activate ticket :: rest } := by
    rw [step_of_agenda stage.isAgenda, answer]
    rfl
  rw [isStep] at between ⊢
  have activated :
      Engine.perform { changed with agenda := .activate ticket :: rest } (.activate ticket) = _ :=
    activate_filter newLive (nodeOf pattern between.follows _)
  refine ⟨⟨ticket, engine.next, event⟩, rfl, ?_⟩
  exact of_answer rfl activated
    (between.follows.awaitStarted newLive stage.follows.older (isNext ▸ Nat.lt_succ_self _))
    isCompleted

/-- The operator `every` starts the filter that starts matches anew. -/
theorem rearm_starts
    (pattern : compiled.FollowedBy firstType secondType first second)
    (stage :
      Stage compiled limit patience engine top each none rights none started
        (.rearm each :: rest) completed) :
    ∃ entry : Ticket × Nat,
      Stage compiled limit patience engine.step.step top each (some entry.1) rights (some entry)
        started rest completed := by
  obtain ⟨eachCreated, live⟩ := stage.follows.eachLive
  have sound := stage.follows.sound
  have newLive := newState_live sound live 2 unbound
    (Progress.withChild (engine.create 2 (some each) unbound).2)
  have isStarter : engine.newState 2 (some each) unbound = starterState each engine.next := by
    simp [newState, starterState, stage.follows.pattern, pattern.nodes, Progress.initial]
  rw [isStarter] at newLive
  have follows := (stage.follows.create 2 (some each) unbound).updateEach
    (Progress.withChild (engine.create 2 (some each) unbound).2)
    (some (engine.create 2 (some each) unbound).2) rfl
  have answer : engine.perform (.rearm each) =
      ((engine.create 2 (some each) unbound).1.update each
          (Progress.withChild (engine.create 2 (some each) unbound).2),
        [.activate (engine.create 2 (some each) unbound).2]) := by
    simp only [perform, rearm, live, nodeOf pattern stage.follows]
    rfl
  have isCompleted : ((engine.create 2 (some each) unbound).1.update each
      (Progress.withChild (engine.create 2 (some each) unbound).2)).completed = completed :=
    stage.isCompleted
  generalize (engine.create 2 (some each) unbound).1.update each
    (Progress.withChild (engine.create 2 (some each) unbound).2) = changed
      at newLive follows answer isCompleted
  generalize (engine.create 2 (some each) unbound).2 = ticket at newLive follows answer
  have between := of_answer stage.isAgenda answer follows isCompleted
  have isStep : engine.step = { changed with agenda := .activate ticket :: rest } := by
    rw [step_of_agenda stage.isAgenda, answer]
    rfl
  rw [isStep] at between ⊢
  have activated :
      Engine.perform { changed with agenda := .activate ticket :: rest } (.activate ticket) = _ :=
    activate_filter newLive (nodeOf pattern between.follows _)
  exact ⟨(ticket, engine.next), of_answer rfl activated
    (between.follows.awaitStarter newLive) isCompleted⟩

/-- The filter of a started match waits on when its predicate does not hold. -/
theorem offerStarted_fails
    (pattern : compiled.FollowedBy firstType secondType first second)
    {entry : Started}
    (stage :
      Stage compiled limit patience engine top each running rights starter started
        (.offer entry.ticket event :: rest) completed)
    (member : entry ∈ started)
    (fails : Node.holds second [.event entry.event, .null, .event event] = false) :
    Stage compiled limit patience engine.step top each running rights starter started rest
      completed := by
  obtain ⟨states, took⟩ := Pool.exists_take (stage.follows.startedLive entry member)
  obtain ⟨faults, offered⟩ := offer_filter event took
    (nodeOf pattern stage.follows _) rfl
  exact of_answer stage.isAgenda (offered.trans (if_neg (Bool.eq_false_iff.mp fails)))
    (stage.follows.withOutcome _ _ _) stage.isCompleted

/-- A started match is completed by an event on which its predicate holds. -/
theorem offerStarted_matches
    (pattern : compiled.FollowedBy firstType secondType first second)
    {entry : Started}
    {before after : List Started}
    (stage :
      Stage compiled limit patience engine top each running rights starter
        (before ++ entry :: after) (.offer entry.ticket event :: rest) completed)
    (holds : Node.holds second [.event entry.event, .null, .event event] = true) :
    Stage compiled limit patience engine.step.step.step top each running
      (rights.filter fun right => right != entry.ticket) starter (before ++ after) rest
      (completed ++ [[.event entry.event, .event event]]) := by
  have entryLive := stage.follows.startedLive entry (by simp)
  obtain ⟨states, took⟩ := Pool.exists_take entryLive
  obtain ⟨faults, offered⟩ := offer_filter event took
    (nodeOf pattern stage.follows _) rfl
  have stillCompleted : (drop { engine with faults }
      (startedState top entry.created entry.event) states).completed = completed := by
    rw [drop_frame]
    exact stage.isCompleted
  have reported := of_answer stage.isAgenda (offered.trans (if_pos holds))
    (dropStarted (stage.follows.withOutcome _ _ _) took) stillCompleted
  obtain ⟨created, live⟩ := reported.follows.topLive
  have notLeft : each ≠ entry.ticket := by
    intro same
    obtain ⟨_, eachLive⟩ := stage.follows.eachLive
    rw [same] at eachLive
    cases eachLive.symm.trans entryLive
  have answer : engine.step.perform
      (.report (some top) entry.ticket (.matched [.event entry.event, .event event] true)) =
        (engine.step.update top (Progress.withoutRight entry.ticket),
          [.report none top (.matched [.event entry.event, .event event] false)]) := by
    simp only [perform, receive, live, nodeOf pattern reported.follows, List.getElem?_cons_zero,
      Option.some.injEq, notLeft, ↓reduceIte, receiveRight]
    rfl
  have passed := of_answer reported.isAgenda answer
    (reported.follows.updateTop (Progress.withoutRight entry.ticket)
      (rights.filter fun right => right != entry.ticket) rfl) reported.isCompleted
  refine of_answer passed.isAgenda rfl (passed.follows.withOutcome _ _ _) ?_
  change engine.step.step.completed ++ [[Value.event entry.event, .event event]] = _
  rw [passed.isCompleted]

/-- The filter that starts matches is shown an event: it starts one more match, or none. -/
theorem offerStarter
    (pattern : compiled.FollowedBy firstType secondType first second)
    {entry : Ticket × Nat}
    (stage :
      Stage compiled limit patience engine top each (some entry.1)
        (started.map Started.ticket) (some entry) started
        (.offer entry.1 event :: rest) completed) :
    Reaches 6 engine fun later =>
      ∃ (again : Ticket × Nat) (new : List Started),
        Stage compiled limit patience later top each (some again.1)
            ((started ++ new).map Started.ticket) (some again) (started ++ new) rest completed ∧
          new.map Started.event =
            if Node.holds first (unbound ++ [.event event]) = true ∧ started.length < limit then
              [event]
            else [] := by
  cases holds : Node.holds first (unbound ++ [.event event]) with
  | false =>
      refine (Reaches.step (.now ⟨entry, [], ?_, by simp⟩)).mono (by decide)
      rw [List.append_nil]
      exact offerStarter_fails pattern stage holds
  | true =>
      have passed := reportToEach pattern (offerStarter_matches pattern stage holds)
      by_cases room : started.length < limit
      · obtain ⟨new, isEvent, placed⟩ := reportToTop_starts pattern passed room
        obtain ⟨again, rearmed⟩ := rearm_starts pattern placed
        refine .step (.step (.step (.step (.step (.step (.now ⟨again, [new], ?_, ?_⟩))))))
        · rw [List.map_append]
          exact rearmed
        · simp [isEvent, room]
      · have refused := reportToTop_refuses pattern passed (Nat.le_of_not_lt room)
        obtain ⟨again, rearmed⟩ := rearm_starts pattern refused
        refine (Reaches.step (.step (.step (.step (.step (.now ⟨again, [], ?_, ?_⟩)))))).mono
          (by decide)
        · rw [List.append_nil]
          exact rearmed
        · simp [room]

/--
The filters of some started matches are shown an event.  The matches that it completes are handed
out in the order in which they were started, and the others are left.
-/
theorem offerStarted
    (pattern : compiled.FollowedBy firstType secondType first second)
    {completes : Event → Bool}
    (isCompletes :
      ∀ earlier, completes earlier = Node.holds second [.event earlier, .null, .event event])
    (kept : List Started)
    {shown new : List Started}
    (stage :
      Stage compiled limit patience engine top each running
        ((kept ++ shown ++ new).map Started.ticket) starter (kept ++ shown ++ new)
        (shown.map fun entry => .offer entry.ticket event) completed) :
    Reaches (3 * shown.length) engine fun later =>
      ∃ left : List Started,
        Stage compiled limit patience later top each running
            ((kept ++ left ++ new).map Started.ticket) starter (kept ++ left ++ new) []
            (completed ++ ((shown.map Started.event).filter completes).map fun earlier =>
              [.event earlier, .event event]) ∧
          left.map Started.event =
            (shown.map Started.event).filter fun earlier => !completes earlier := by
  induction shown generalizing engine kept completed with
  | nil =>
      refine .now ⟨[], ?_, rfl⟩
      simpa using stage
  | cons entry shown inductionHypothesis =>
      cases holds : completes entry.event with
      | false =>
          have waits := offerStarted_fails pattern stage (by simp)
            ((isCompletes entry.event).symm.trans holds)
          have isMoved : kept ++ entry :: shown = kept ++ [entry] ++ shown := by simp
          rw [isMoved] at waits
          refine (Reaches.step ((inductionHypothesis _ waits).imp ?_)).mono
            (by rw [List.length_cons]; omega)
          rintro later ⟨left, reached, isLeft⟩
          refine ⟨entry :: left, ?_, by simp [holds, isLeft]⟩
          simpa [holds] using reached
      | true =>
          rw [List.append_assoc, List.cons_append] at stage
          have leaves := offerStarted_matches pattern stage
            ((isCompletes entry.event).symm.trans holds)
          rw [stage.follows.tickets_without, ← List.append_assoc] at leaves
          refine (Reaches.step (.step (.step ((inductionHypothesis _ leaves).imp ?_)))).mono
            (by rw [List.length_cons]; omega)
          rintro later ⟨left, reached, isLeft⟩
          refine ⟨left, ?_, by simp [holds, isLeft]⟩
          simpa [holds] using reached

/-- Filters that wait for one type are all shown an event of that type, and no other. -/
private theorem filterMap_candidates
    (engine : Engine)
    (waiting : List (Rank × Ticket))
    (awaited eventType : String)
    (waits :
      ∀ entry ∈ waiting, ∃ slot predicate,
        (engine.states.get? entry.2).bind engine.nodeOf = some (.filter awaited slot predicate)) :
    waiting.filterMap (fun entry =>
      match (engine.states.get? entry.2).bind engine.nodeOf with
      | some (.filter awaited _ _) => if awaited = eventType then some entry.2 else none
      | _ => none) =
      if awaited = eventType then waiting.map Prod.snd else [] := by
  induction waiting with
  | nil => simp
  | cons entry waiting inductionHypothesis =>
      obtain ⟨slot, predicate, waitsHere⟩ := waits entry (List.mem_cons_self)
      rw [List.filterMap_cons, waitsHere,
        inductionHypothesis fun other member => waits other (List.mem_cons_of_mem _ member)]
      by_cases same : awaited = eventType
      · simp [same]
      · simp [same]

/-- The filters that are shown an event are those of its type, the one that starts matches first. -/
theorem candidates
    (pattern : compiled.FollowedBy firstType secondType first second)
    {entry : Ticket × Nat}
    (follows :
      Follows compiled limit patience engine top each running rights (some entry) started)
    (eventType : String) :
    engine.candidates eventType =
      (if firstType = eventType then [entry.1] else []) ++
        if secondType = eventType then started.map Started.ticket else [] := by
  have filters : engine.filters =
      [(⟨2, entry.2⟩, entry.1)] ++ started.map fun other => (⟨3, other.created⟩, other.ticket) :=
    follows.filters
  rw [Engine.candidates, filters, List.filterMap_append]
  have starts := filterMap_candidates engine [(⟨2, entry.2⟩, entry.1)] firstType
    eventType (by
      intro other member
      cases List.mem_singleton.mp member
      exact ⟨some 0, first, by
        rw [follows.starterLive entry rfl, Option.bind_some, nodeOf pattern follows]
        rfl⟩)
  have completes := filterMap_candidates engine
    (started.map fun other => (⟨3, other.created⟩, other.ticket)) secondType eventType (by
      intro waiting member
      obtain ⟨other, inStarted, isWaiting⟩ := List.mem_map.mp member
      exact ⟨some 1, second, by
        rw [← isWaiting, follows.startedLive other inStarted, Option.bind_some,
          nodeOf pattern follows]
        rfl⟩)
  rw [List.map_map] at completes
  exact congrArg₂ (· ++ ·) starts completes

end Stage

end Engine

end EventQuery
