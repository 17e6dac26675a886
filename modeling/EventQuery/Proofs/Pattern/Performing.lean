import EventQuery.Proofs.Pattern.Gathering

namespace EventQuery

namespace Engine

/-!
# Performing tasks

Every task has a right answer, and so an engine that is ready to perform its agenda stays ready step
by step.

A report reaches a state that lists its sender.  Where it stands in the list says what the state has
heard, and each operator has its own answer to that.
-/

/-! ## Answers of states to reports -/

section Receive

variable {compiled : CompiledPattern} {law : RowLaw compiled} {moment horizon : Nat}
  {engine : Engine} {starting : List Ticket} {gap : Option (Ticket × PatternState)}
  {sender : Ticket} {signal : Signal}

/-- A state knows the operand that reports to it. -/
theorem Reports.hears
    {receiver : Ticket}
    (reports : Reports law moment engine gap (some receiver) sender signal)
    (coherent : engine.Coherent law moment horizon starting gap []) :
    ∃ owner node child start, engine.states.get? receiver = some owner ∧
      compiled.nodes[owner.node]? = some node ∧ receiver ∉ starting ∧
        law.Adopts (moment + 1) owner.node owner.bindings node owner.progress sender child start ∧
          Hears law moment receiver sender child start gap signal := by
  have adopted : ∀ {held : PatternState},
      engine.Present gap sender held → held.parent = some receiver →
        ∃ owner node, engine.states.get? receiver = some owner ∧
          compiled.nodes[owner.node]? = some node ∧ receiver ∉ starting ∧
            law.Adopts (moment + 1) owner.node owner.bindings node owner.progress sender
              held.node held.bindings := by
    intro held present hasParent
    obtain ⟨owner, node, live, atNode, adopts, _⟩ :=
      coherent.linked.adopted present (by simp) hasParent
    refine ⟨owner, node, live, atNode, fun member => ?_, adopts⟩
    have listed := adopts.mem_children
    rw [coherent.fresh.childless receiver member live] at listed
    cases listed
  generalize isParent : some receiver = parent at reports
  cases reports with
  | @running _ held _ live yields =>
      obtain ⟨owner, node, ownerLive, atNode, outside, adopts⟩ :=
        adopted (.inl live) isParent.symm
      exact ⟨owner, node, held.node, held.bindings, ownerLive, atNode, outside, adopts,
        .running yields⟩
  | @last _ held _ yields noAbsence =>
      obtain ⟨owner, node, ownerLive, atNode, outside, adopts⟩ :=
        adopted (.inr rfl) isParent.symm
      exact ⟨owner, node, held.node, held.bindings, ownerLive, atNode, outside, adopts,
        .last isParent.symm yields noAbsence⟩
  | @failed _ held _ =>
      obtain ⟨owner, node, ownerLive, atNode, outside, adopts⟩ :=
        adopted (.inr rfl) isParent.symm
      exact ⟨owner, node, held.node, held.bindings, ownerLive, atNode, outside, adopts,
        .failed isParent.symm⟩

/-- A state answers the report of its operand. -/
theorem answers_receive
    {receiver : Ticket}
    (table : compiled.Sound)
    (coherent : engine.Coherent law moment horizon starting gap [])
    (reports : Reports law moment engine gap (some receiver) sender signal) :
    Answers law moment horizon engine starting (engine.receive receiver sender signal) := by
  obtain ⟨owner, node, child, start, live, atNode, outside, adopts, hears⟩ :=
    reports.hears coherent
  have atEngine : engine.nodeOf owner = some node := by
    rw [nodeOf, coherent.kept.pattern, atNode]
  have distinct := coherent.kept.childrenNodup live
  rcases owner with ⟨number, parent, created, bindings, progress⟩
  simp only at atNode adopts distinct
  cases adopts with
  | every =>
      simp only [receive, live, atEngine]
      exact answers_receiveEvery coherent outside live atNode rfl hears
  | left =>
      simp only [receive, live, atEngine, ↓reduceIte]
      exact answers_receiveLeft table coherent outside live atNode rfl hears
  | @right _ _ running _ _ _ member passed =>
      have notLeft : running ≠ some sender := by
        intro isLeft
        exact (List.nodup_append.mp distinct).2.2 sender (by simp [isLeft]) sender member rfl
      simp only [receive, live, atEngine, if_neg notLeft]
      exact answers_receiveRight coherent live atNode rfl member passed hears
  | alternation member isOperand =>
      simp only [receive, live, atEngine]
      exact answers_receiveAlternation coherent live atNode rfl isOperand hears
  | conjunction atChild atOperand isSender =>
      simp only [receive, live, atEngine]
      exact answers_receiveConjunction coherent live atNode rfl atChild atOperand isSender hears
  | repetition begun order =>
      simp only [receive, live, atEngine]
      exact answers_receiveRepetition coherent outside live atNode rfl begun order hears
  | negation =>
      simp only [receive, live, atEngine]
      exact answers_receiveNegation coherent live atNode rfl hears
  | within =>
      simp only [receive, live, atEngine]
      exact answers_receiveWithin table coherent live atNode rfl hears
  | guarded =>
      simp only [receive, live, atEngine]
      exact answers_receiveGuarded coherent live atNode hears

end Receive

/-! ## Steps -/

section Conclude

variable {compiled : CompiledPattern} {law : RowLaw compiled} {moment horizon : Nat}
  {engine : Engine} {starting : List Ticket} {gap : Option (Ticket × PatternState)}
  {sender : Ticket} {signal : Signal}

/-- A match is handed out. -/
theorem Coherent.complete
    (coherent : engine.Coherent law moment horizon starting gap [])
    {row : Row}
    (yields : law.yield (moment + 1) CompiledPattern.rootNumber compiled.blank row) :
    Coherent law moment horizon { engine with completed := engine.completed ++ [row] } starting
      gap [] where
  kept :=
    { coherent.kept with
      completed := by
        intro found member
        rcases List.mem_append.mp member with old | isNew
        · exact coherent.kept.completed found old
        · exact List.mem_singleton.mp isNew ▸ yields }
  linked := { coherent.linked with }
  fresh := { coherent.fresh with }
  indexed := { coherent.indexed with }

/-- A pattern whose root is gone has no root any longer. -/
theorem Coherent.uproot
    {state : PatternState}
    (coherent : engine.Coherent law moment horizon starting (some (sender, state)) [])
    (isTop : state.parent = none) :
    Coherent law moment horizon { engine with root := none } starting none [] where
  kept := { coherent.kept with }
  linked := by
    have wasRoot := (coherent.linked.top (.inr rfl) (by simp) isTop).1
    have spent := (coherent.linked.gapSpent rfl).1
    have stays : ∀ {ticket : Ticket} {held : PatternState},
        Present { engine with root := none } none ticket held →
          engine.states.get? ticket = some held :=
      fun present => present.resolve_right (by simp)
    constructor
    case top =>
        intro ticket held present _ noParent
        have live := stays present
        have isRoot := (coherent.linked.top (.inl live) (by simp) noParent).1
        cases wasRoot.symm.trans isRoot
        rw [spent.get?_eq_none] at live
        cases live
    case adopted =>
        intro ticket parent held present _ hasParent
        exact coherent.linked.adopted (.inl (stays present)) (by simp) hasParent
    case listed =>
        intro parent ticket owner live member
        obtain ⟨outside, held, present, hasParent⟩ := coherent.linked.listed live member
        rcases present with found | isGap
        · exact ⟨outside, held, .inl found, hasParent⟩
        · cases isGap
          rw [isTop] at hasParent
          cases hasParent
    case rooted =>
        intro ticket isRoot
        cases isRoot
    case gapSpent =>
        intro ticket held isGap
        cases isGap
  fresh := { coherent.fresh with }
  indexed := { coherent.indexed with }

/-- A report without a receiver is one of the root. -/
theorem answers_conclude
    (coherent : engine.Coherent law moment horizon starting gap [])
    (reports : Reports law moment engine gap none sender signal) :
    Answers law moment horizon engine starting (engine.conclude signal, []) := by
  generalize isParent : none = parent at reports
  cases reports with
  | running live yields =>
      obtain ⟨_, isRoot, isBlank⟩ := coherent.linked.top (.inl live) (by simp) isParent.symm
      rw [isRoot, isBlank] at yields
      exact (answers_nothing (coherent.complete yields)).of_evolves (.of_states_eq rfl)
  | last yields _ =>
      obtain ⟨_, isRoot, isBlank⟩ := coherent.linked.top (.inr rfl) (by simp) isParent.symm
      rw [isRoot, isBlank] at yields
      exact (answers_nothing ((coherent.complete yields).uproot isParent.symm)).of_evolves
        (.of_states_eq rfl)
  | failed =>
      exact (answers_nothing (coherent.uproot isParent.symm)).of_evolves (.of_states_eq rfl)

end Conclude

section Perform

variable {compiled : CompiledPattern} {law : RowLaw compiled} {moment horizon : Nat}
  {engine : Engine} {starting : List Ticket} {ticket : Ticket}

/-- A negation reports that what it waits for is absent so far. -/
theorem answers_absence
    (coherent : engine.Coherent law moment horizon starting none [])
    (isNegation :
      ∀ {state : PatternState}, engine.states.get? ticket = some state →
        ∃ child, compiled.nodes[state.node]? = some (.negation child)) :
    Answers law moment horizon engine starting (engine.perform (.absence ticket)) := by
  simp only [perform]
  cases live : engine.states.get? ticket with
  | none =>
      exact answers_nothing coherent
  | some state =>
      obtain ⟨child, atNode⟩ := isNegation live
      exact answers_reportMatch_alone coherent live
        (law.yield_negation atNode (coherent.kept.starts_next live))

/-- A filter that is shown an event matches it, or waits on. -/
theorem answers_offer
    (coherent : engine.Coherent law moment horizon starting none [])
    {event : Event}
    (admitted : law.admits moment event)
    (waits :
      ∀ {state : PatternState}, engine.states.get? ticket = some state →
        state.created < horizon ∧
          ∃ slot predicate,
            compiled.nodes[state.node]? = some (.filter event.kind slot predicate)) :
    Answers law moment horizon engine starting (engine.offer ticket event) := by
  cases live : engine.states.get? ticket with
  | none =>
      simp only [offer, live]
      exact answers_nothing coherent
  | some state =>
      obtain ⟨older, slot, predicate, atNode⟩ := waits live
      have atEngine : engine.nodeOf state = some (.filter event.kind slot predicate) := by
        rw [nodeOf, coherent.kept.pattern, atNode]
      have starts : law.start moment state.node state.bindings := by
        have before := coherent.kept.starts live
        rwa [birth, if_pos older] at before
      have yields := law.yield_filter atNode starts admitted rfl
      have matched : ∀ faults : List Fault,
          Answers law moment horizon engine starting
            (finish { engine with faults } ticket
              (.matched (bindEvent state.bindings slot event) true)) := by
        intro faults
        exact (answers_finish_last (coherent.withFaults faults) live (by simp) yields
          (CompiledPattern.not_negation atNode (by simp))).of_evolves (.of_states_eq rfl)
      simp only [offer, live, atEngine]
      cases predicate with
      | none =>
          simp only [↓reduceIte]
          cases slot with
          | none => exact matched engine.faults
          | some slot => exact matched engine.faults
      | some condition =>
          obtain ⟨faults, tested⟩ :=
            test_frame engine condition (state.bindings ++ [Value.event event])
          simp only [tested]
          split
          next =>
              cases slot with
              | none => exact matched faults
              | some slot => exact matched faults
          next =>
              exact (answers_nothing (coherent.withFaults faults)).of_evolves (.of_states_eq rfl)

/-- A deadline that has come ends its state. -/
theorem answers_expire
    (coherent : engine.Coherent law moment horizon starting none []) :
    Answers law moment horizon engine starting (engine.expire ticket) := by
  cases live : engine.states.get? ticket with
  | none =>
      simp only [expire, live]
      exact answers_nothing coherent
  | some state =>
      have starts := coherent.kept.starts_next live
      obtain ⟨node, atNode, fits⟩ := coherent.kept.fits live
      rcases state with ⟨number, parent, created, bindings, progress⟩
      simp only at fits atNode starts
      cases fits with
      | timer =>
          simp only [expire, live]
          exact answers_finish_last coherent live (by simp) (law.yield_timer atNode starts)
            (CompiledPattern.not_negation atNode (by simp))
      | @within _ _ _ _ deadline row held =>
          simp only [expire, live]
          cases row with
          | none =>
              exact answers_finish_failed coherent live (by simp) true
          | some row =>
              exact answers_finish_last coherent live (by simp)
                (law.yield_passing atNode (.head _) starts (held row rfl))
                (CompiledPattern.not_negation atNode (by simp))
      | _ =>
          simp only [expire, live]
          exact answers_nothing coherent

/-- An operand whose owner is gone is gone as well. -/
theorem Coherent.get?_of_ownerless
    {owner : Ticket}
    (coherent : engine.Coherent law moment horizon starting none [])
    (hasOwner :
      ∀ {state : PatternState},
        engine.states.get? ticket = some state → state.parent = some owner)
    (ownerGone : ¬engine.states.contains owner = true) :
    engine.states.get? ticket = none := by
  rw [Option.eq_none_iff_forall_not_mem]
  intro state live
  obtain ⟨held, _, ownerLive, _⟩ :=
    coherent.linked.adopted (.inl live) (by simp) (hasOwner live)
  exact ownerGone (by simp [Pool.contains, ownerLive])

/-- An operand starts to run, or is dropped when its owner is gone. -/
theorem answers_operand
    (table : compiled.Sound)
    {owner : Ticket}
    (coherent : engine.Coherent law moment horizon (ticket :: starting) none [])
    (hasOwner :
      ∀ {state : PatternState},
        engine.states.get? ticket = some state → state.parent = some owner) :
    Answers law moment horizon engine starting (engine.perform (.operand owner ticket)) := by
  simp only [perform]
  split
  next => exact answers_activate table coherent
  next ownerGone =>
      have dead := coherent.get?_of_ownerless hasOwner ownerGone
      rw [release_of_dead dead]
      exact answers_nothing (coherent.begin (by simp [dead]))

/-- A task that is due has a right answer. -/
theorem answers_perform
    (table : compiled.Sound)
    {task : Task}
    {rest : List Task}
    (ready : Ready law moment horizon engine starting (task :: rest)) :
    Answers law moment horizon engine (Task.started rest ++ starting) (engine.perform task) := by
  cases task with
  | activate ticket =>
      exact answers_activate table ready.1
  | operand owner ticket =>
      exact answers_operand table ready.1 (ready.2 (.operand owner ticket) (by simp)).2
  | absence ticket =>
      exact answers_absence ready.1 (ready.2 (.absence ticket) (by simp)).2
  | report receiver sender signal =>
      obtain ⟨gap, coherent, reports, _⟩ := ready
      cases receiver with
      | none => exact answers_conclude coherent reports
      | some receiver => exact answers_receive table coherent reports
  | rearm ticket =>
      exact answers_rearm table ready.1 (ready.2 (.rearm ticket) (by simp)).2
  | iterate ticket =>
      exact answers_iterate table ready.1 (ready.2 (.iterate ticket) (by simp)).2
  | offer ticket event =>
      obtain ⟨_, admitted, waits⟩ := ready.2 (.offer ticket event) (by simp)
      exact answers_offer ready.1 admitted waits
  | expire ticket =>
      exact answers_expire ready.1

/-- Performing a task leaves an engine ready for the tasks that come next. -/
theorem ready_perform
    (table : compiled.Sound)
    {task : Task}
    {rest : List Task}
    (ready : Ready law moment horizon engine starting (task :: rest)) :
    Ready law moment horizon (engine.perform task).1 starting
      ((engine.perform task).2 ++ rest) := by
  have answers := answers_perform table ready
  cases task with
  | report receiver sender signal =>
      obtain ⟨gap, _, _, apt⟩ := ready
      exact answers.ready_append rest (fun _ member => member) apt
  | _ =>
      refine answers.ready_append rest ?_ fun other member =>
        ready.2 other (List.mem_cons_of_mem _ member)
      intro ticket member
      rcases List.mem_append.mp member with waits | inStarting
      · exact List.mem_append_left _ (((List.sublist_cons_self _ _).filterMap _).subset waits)
      · exact List.mem_append_right _ inStarting

end Perform

end Engine

end EventQuery
