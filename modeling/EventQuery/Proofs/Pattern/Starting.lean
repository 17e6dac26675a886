import EventQuery.Proofs.Pattern.Answer

namespace EventQuery

namespace Engine

/-!
# Starting operands and finishing states

These are the answers that the operators share: an operand starts, all operands start, a state
reports a match and goes on, and a state finishes.
-/

section Order

variable {compiled : CompiledPattern} {law : RowLaw compiled} {moment horizon : Nat}
  {engine : Engine} {starting others : List Ticket} {gap : Option (Ticket × PatternState)}
  {orphans : List Ticket}

/-- The order of the states that do not run yet is of no account. -/
theorem Coherent.perm
    (coherent : engine.Coherent law moment horizon starting gap orphans)
    (same : starting.Perm others) :
    engine.Coherent law moment horizon others gap orphans where
  kept := coherent.kept
  linked := coherent.linked
  fresh :=
    { nodup := same.nodup_iff.mp coherent.fresh.nodup
      issued := fun ticket member => coherent.fresh.issued ticket (same.mem_iff.mpr member)
      childless := fun ticket member => coherent.fresh.childless ticket (same.mem_iff.mpr member) }
  indexed :=
    { filters := fun rank ticket => by
        rw [← same.mem_iff]
        exact coherent.indexed.filters rank ticket
      deadlines := fun rank ticket => by
        rw [← same.mem_iff]
        exact coherent.indexed.deadlines rank ticket
      filtersSorted := coherent.indexed.filtersSorted
      deadlinesSorted := coherent.indexed.deadlinesSorted
      leaves := by
        rw [← same.countP_eq]
        exact coherent.indexed.leaves }

theorem Linked.perm
    {lost : List Ticket}
    (linked : engine.Linked law moment gap orphans)
    (same : orphans.Perm lost) :
    engine.Linked law moment gap lost where
  top := fun present outside => linked.top present fun member => outside (same.mem_iff.mp member)
  adopted := fun present outside =>
    linked.adopted present fun member => outside (same.mem_iff.mp member)
  listed := fun live member => by
    rw [← same.mem_iff]
    exact linked.listed live member
  rooted := fun isRoot => by
    rw [← same.mem_iff]
    exact linked.rooted isRoot
  gapSpent := fun isGap => by
    rw [← same.mem_iff]
    exact linked.gapSpent isGap

end Order

section Create

variable {compiled : CompiledPattern} {law : RowLaw compiled} {moment horizon : Nat}
  {engine : Engine} {starting : List Ticket} {gap : Option (Ticket × PatternState)}
  {orphans : List Ticket}

/-- What is known of new states: their nodes, their owner, and that they are new. -/
structure Created
    (before after : Engine)
    (owner : Ticket)
    (bindings : Row)
    (numbers : List Nat)
    (tickets : List Ticket) : Prop where
  evolves : Evolves before after
  live :
    ∀ {ticket : Ticket} {state : PatternState},
      before.states.get? ticket = some state → after.states.get? ticket = some state
  fresh : ∀ ticket ∈ tickets, ¬before.states.Issued ticket
  states :
    List.Forall₂
      (fun number ticket =>
        ∃ state, after.states.get? ticket = some state ∧ state.node = number ∧
          state.parent = some owner ∧ state.bindings = bindings ∧ before.next ≤ state.created)
      numbers tickets

/-- Creating states one after another keeps an engine coherent. -/
theorem Coherent.createAll
    {numbers : List Nat}
    (coherent : engine.Coherent law moment horizon starting gap orphans)
    (owner : Ticket)
    {bindings : Row}
    (starts :
      ∀ number ∈ numbers,
        ∃ node, compiled.nodes[number]? = some node ∧ law.start (moment + 1) number bindings) :
    (engine.createAll owner bindings numbers).1.Coherent law moment horizon
        ((engine.createAll owner bindings numbers).2 ++ starting) gap
        ((engine.createAll owner bindings numbers).2 ++ orphans) ∧
      Created engine (engine.createAll owner bindings numbers).1 owner bindings numbers
        (engine.createAll owner bindings numbers).2 := by
  induction numbers generalizing engine starting orphans with
  | nil =>
      exact ⟨coherent, .refl engine, id, by simp [Engine.createAll], .nil⟩
  | cons number rest inductionHypothesis =>
      obtain ⟨node, atNumber, mayStart⟩ := starts number (by simp)
      have sound := coherent.kept.sound
      have first := coherent.create number (some owner) atNumber mayStart
      obtain ⟨all, created⟩ :=
        inductionHypothesis first fun other member => starts other (List.mem_cons_of_mem _ member)
      have evolves := evolves_create sound number (some owner) bindings
      refine ⟨?_, ?_⟩
      · refine Coherent.perm ?_ List.perm_middle
        exact { all with linked := all.linked.perm List.perm_middle }
      · constructor
        case evolves =>
            exact evolves.trans created.evolves
        case live =>
            intro ticket state live
            exact created.live (get?_create_of_live sound _ _ _ live)
        case fresh =>
            intro ticket member
            rcases List.mem_cons.mp member with isFirst | inRest
            · rw [isFirst]
              exact not_issued_create sound number (some owner) bindings
            · exact fun issued => created.fresh ticket inRest (evolves.issued issued)
        case states =>
            refine .cons ?_ (created.states.imp ?_)
            · exact ⟨engine.newState number (some owner) bindings,
                created.live (get?_create_self sound number (some owner) bindings), rfl, rfl, rfl,
                Nat.le_refl _⟩
            · rintro other ticket ⟨state, live, isNode, hasOwner, started, order⟩
              exact ⟨state, live, isNode, hasOwner, started, Nat.le_of_succ_le order⟩

end Create

section Adopt

variable {compiled : CompiledPattern} {law : RowLaw compiled} {moment horizon : Nat}
  {engine : Engine} {starting : List Ticket} {owner : Ticket} {state : PatternState}
  {node : PatternNode} {bindings : Row} {numbers : List Nat}
  {change : List Ticket → Progress → Progress}

private theorem exists_place
    {related : Nat → Ticket → Prop}
    {tickets : List Ticket}
    (all : List.Forall₂ related numbers tickets)
    {ticket : Ticket}
    (member : ticket ∈ tickets) :
    ∃ (place number : Nat),
      numbers[place]? = some number ∧ tickets[place]? = some ticket ∧
        related number ticket := by
  obtain ⟨place, inRange, atPlace⟩ := List.getElem_of_mem member
  have sameLength := all.length_eq
  refine ⟨place, numbers[place], List.getElem?_eq_getElem (by omega), ?_, ?_⟩
  · rw [List.getElem?_eq_getElem inRange, atPlace]
  · have atBoth := all.get (i := place) (by omega) inRange
    simpa [atPlace] using atBoth

/-- New operands of a state that runs are adopted as soon as their owner lists them. -/
theorem Coherent.adoptAll
    (coherent : engine.Coherent law moment horizon starting none [])
    (numbers : List Nat)
    (bindings : Row)
    (change : List Ticket → Progress → Progress)
    (live : engine.states.get? owner = some state)
    (atNode : compiled.nodes[state.node]? = some node)
    (runs : owner ∉ starting)
    (starts :
      ∀ number ∈ numbers,
        ∃ child, compiled.nodes[number]? = some child ∧ law.start (moment + 1) number bindings)
    (fits :
      ∀ tickets : List Ticket, tickets.length = numbers.length →
        law.Fits (moment + 1) state.node state.bindings node (change tickets state.progress))
    (sameWait :
      ∀ tickets : List Ticket, (change tickets state.progress).wait = state.progress.wait)
    (lists :
      ∀ tickets : List Ticket, tickets.length = numbers.length →
        (change tickets state.progress).children = state.progress.children ++ tickets)
    (adopts :
      ∀ (tickets : List Ticket) {place number : Nat} {ticket : Ticket},
        tickets.length = numbers.length →
          numbers[place]? = some number → tickets[place]? = some ticket →
            law.Adopts (moment + 1) state.node state.bindings node
              (change tickets state.progress) ticket number bindings)
    (carries :
      ∀ (tickets : List Ticket) {ticket : Ticket} {child : Nat} {row : Row},
        law.Adopts (moment + 1) state.node state.bindings node state.progress ticket child row →
          law.Adopts (moment + 1) state.node state.bindings node
            (change tickets state.progress) ticket child row)
    {tickets : List Ticket}
    {created : Engine}
    (creates : engine.createAll owner bindings numbers = (created, tickets)) :
    (created.update owner (change tickets)).Coherent law moment horizon (tickets ++ starting) none
        [] ∧
      Evolves engine (created.update owner (change tickets)) ∧
      (∀ ticket ∈ tickets, ¬engine.states.Issued ticket) ∧
      ∀ ticket ∈ tickets, ∀ {child : PatternState},
        (created.update owner (change tickets)).states.get? ticket = some child →
          child.parent = some owner := by
  obtain ⟨coherentCreated, isCreated⟩ := coherent.createAll owner starts
  rw [creates] at coherentCreated isCreated
  rw [List.append_nil] at coherentCreated
  have ownerLive := isCreated.live live
  have sameLength : tickets.length = numbers.length := isCreated.states.length_eq.symm
  have notNew : owner ∉ tickets := fun member =>
    isCreated.fresh owner member (.inl ⟨state, live⟩)
  refine ⟨?_, isCreated.evolves.trans (evolves_update created owner _), isCreated.fresh, ?_⟩
  · refine coherentCreated.adopt ownerLive atNode ?_ (fits tickets sameLength) (sameWait tickets)
      (lists tickets sameLength) (List.nodup_append.mp coherentCreated.fresh.nodup).1 ?_
      (carries tickets)
    · rw [List.mem_append, not_or]
      exact ⟨notNew, runs⟩
    · intro ticket member
      obtain ⟨place, number, atNumber, atTicket, child, found, isNode, hasOwner, started, order⟩ :=
        exists_place isCreated.states member
      refine ⟨child, found, hasOwner, ?_, ?_⟩
      · exact Nat.lt_of_lt_of_le (coherent.kept.numbered live) order
      · rw [isNode, started]
        exact adopts tickets sameLength atNumber atTicket
  · intro ticket member child found
    have different : ticket ≠ owner := fun same => notNew (same ▸ member)
    rw [get?_update, if_neg different] at found
    obtain ⟨_, _, _, _, other, foundOther, _, hasOwner, _⟩ := exists_place isCreated.states member
    cases found.symm.trans foundOther
    exact hasOwner

end Adopt

section Start

variable {compiled : CompiledPattern} {law : RowLaw compiled} {moment horizon : Nat}
  {engine : Engine} {starting : List Ticket} {owner : Ticket} {state : PatternState}
  {node : PatternNode} {bindings : Row}

/-- One new operand is adopted. -/
private theorem Coherent.adoptOne
    (coherent : engine.Coherent law moment horizon starting none [])
    (number : Nat)
    (bindings : Row)
    (change : Ticket → Progress → Progress)
    (live : engine.states.get? owner = some state)
    (atNode : compiled.nodes[state.node]? = some node)
    (runs : owner ∉ starting)
    (isOperand : ∃ operand, compiled.nodes[number]? = some operand)
    (starts : law.start (moment + 1) number bindings)
    (fits :
      ∀ ticket : Ticket,
        law.Fits (moment + 1) state.node state.bindings node (change ticket state.progress))
    (sameWait : ∀ ticket : Ticket, (change ticket state.progress).wait = state.progress.wait)
    (lists :
      ∀ ticket : Ticket,
        (change ticket state.progress).children = state.progress.children ++ [ticket])
    (adopts :
      ∀ ticket : Ticket,
        law.Adopts (moment + 1) state.node state.bindings node (change ticket state.progress)
          ticket number bindings)
    (carries :
      ∀ (added : Ticket) {ticket : Ticket} {child : Nat} {row : Row},
        law.Adopts (moment + 1) state.node state.bindings node state.progress ticket child row →
          law.Adopts (moment + 1) state.node state.bindings node (change added state.progress)
            ticket child row) :
    Answers law moment horizon engine starting
      ((engine.create number (some owner) bindings).1.update owner
          (change (engine.create number (some owner) bindings).2),
        [.activate (engine.create number (some owner) bindings).2]) := by
  obtain ⟨started, evolves, fresh, _⟩ :=
    coherent.adoptAll [number] bindings (fun tickets => change (tickets.headD owner)) live atNode
      runs (by simpa using ⟨isOperand, starts⟩)
      (fun tickets _ => fits _)
      (fun tickets => sameWait _)
      (by
        intro tickets single
        obtain ⟨ticket, rfl⟩ := List.length_eq_one_iff.mp single
        exact lists ticket)
      (by
        intro tickets place only ticket single atNumber atTicket
        obtain ⟨first, rfl⟩ := List.length_eq_one_iff.mp single
        cases place with
        | zero =>
            cases atNumber
            cases atTicket
            exact adopts _
        | succ _ => cases atNumber)
      (fun tickets => carries _)
      rfl
  exact ⟨evolves, fresh, started, by simp [Apt]⟩

/-- The only operand of a state, or the left one of a sequence, starts. -/
theorem answers_startChild
    (coherent : engine.Coherent law moment horizon starting none [])
    (live : engine.states.get? owner = some state)
    (atNode : compiled.nodes[state.node]? = some node)
    (runs : owner ∉ starting)
    {child : Nat}
    (isOperand : ∃ operand, compiled.nodes[child]? = some operand)
    (starts : law.start (moment + 1) child bindings)
    (childless : state.progress.children = [])
    (fits :
      ∀ ticket : Ticket,
        law.Fits (moment + 1) state.node state.bindings node (state.progress.withChild ticket))
    (lists : ∀ ticket : Ticket, (state.progress.withChild ticket).children = [ticket])
    (adopts :
      ∀ ticket : Ticket,
        law.Adopts (moment + 1) state.node state.bindings node (state.progress.withChild ticket)
          ticket child bindings) :
    Answers law moment horizon engine starting (engine.startChild owner child bindings) :=
  coherent.adoptOne child bindings Progress.withChild live atNode runs isOperand starts fits
    (fun ticket => by cases state.progress <;> rfl)
    (fun ticket => by rw [childless]; exact lists ticket) adopts
    (by
      intro added ticket number row adopted
      have member := adopted.mem_children
      rw [childless] at member
      cases member)

/-- All operands of a state start. -/
theorem answers_startOperands
    (coherent : engine.Coherent law moment horizon starting none [])
    (live : engine.states.get? owner = some state)
    (atNode : compiled.nodes[state.node]? = some node)
    (runs : owner ∉ starting)
    {operands : List Nat}
    (starts :
      ∀ operand ∈ operands,
        ∃ child, compiled.nodes[operand]? = some child ∧
          law.start (moment + 1) operand bindings)
    (childless : state.progress.children = [])
    (fits :
      ∀ tickets : List Ticket, tickets.length = operands.length →
        law.Fits (moment + 1) state.node state.bindings node
          (state.progress.withOperands tickets))
    (lists :
      ∀ tickets : List Ticket, (state.progress.withOperands tickets).children = tickets)
    (adopts :
      ∀ (tickets : List Ticket) {place operand : Nat} {ticket : Ticket},
        operands[place]? = some operand → tickets[place]? = some ticket →
          law.Adopts (moment + 1) state.node state.bindings node
            (state.progress.withOperands tickets) ticket operand bindings) :
    Answers law moment horizon engine starting (engine.startOperands owner operands bindings) := by
  obtain ⟨started, evolves, fresh, parents⟩ :=
    coherent.adoptAll operands bindings (fun tickets => Progress.withOperands tickets) live atNode
      runs starts fits
      (fun tickets => by cases state.progress <;> rfl)
      (fun tickets _ => by rw [childless]; exact lists tickets)
      (fun tickets _ _ _ _ => adopts tickets)
      (by
        intro tickets ticket number row adopted
        have member := adopted.mem_children
        rw [childless] at member
        cases member)
      rfl
  have starting_eq : ∀ tickets : List Ticket,
      Task.started (tickets.map (Task.operand owner)) = tickets := by
    intro tickets
    simp [Task.started, List.filterMap_map, Function.comp_def, Task.started?]
  refine ⟨evolves, ?_, ?_⟩
  · rw [startOperands, starting_eq]
    exact fresh
  · refine ready_of_apt ?_ ?_
    · rw [startOperands, starting_eq]
      exact started
    · intro task member
      obtain ⟨ticket, isNew, isTask⟩ := List.mem_map.mp member
      rw [← isTask]
      exact ⟨started.fresh.issued ticket (List.mem_append_left _ isNew),
        fun found => parents ticket isNew found⟩

/-- A right operand of a sequence starts. -/
theorem answers_startRight
    (coherent : engine.Coherent law moment horizon starting none [])
    (live : engine.states.get? owner = some state)
    (runs : owner ∉ starting)
    {left right : Nat}
    (atNode : compiled.nodes[state.node]? = some (.sequence left right))
    {running : Option Ticket}
    {rights : List Ticket}
    (shape : state.progress = .sequence running rights)
    (isOperand : ∃ operand, compiled.nodes[right]? = some operand)
    {middle : Row}
    (starts : law.start (moment + 1) right middle)
    (yields : law.yield (moment + 1) left state.bindings middle) :
    Answers law moment horizon engine starting
      ((engine.create right (some owner) middle).1.update owner
          (Progress.withRight (engine.create right (some owner) middle).2),
        [.activate (engine.create right (some owner) middle).2]) :=
  coherent.adoptOne right middle Progress.withRight live atNode runs isOperand starts
    (fun ticket => by rw [shape]; exact .sequence)
    (fun ticket => by rw [shape]; rfl)
    (fun ticket => by simp [shape, Progress.withRight, Progress.children])
    (fun ticket => by rw [shape]; exact .right (by simp) yields)
    (by
      intro added ticket number row adopted
      rw [shape] at adopted ⊢
      cases adopted with
      | left => exact .left
      | right member found => exact .right (List.mem_append_left _ member) found)

end Start

section Finish

variable {compiled : CompiledPattern} {law : RowLaw compiled} {moment horizon : Nat}
  {before engine : Engine} {starting : List Ticket} {gap : Option (Ticket × PatternState)}
  {ticket : Ticket} {state : PatternState}

theorem Answers.of_evolves
    {answer : Engine × List Task}
    (answers : Answers law moment horizon engine starting answer)
    (evolves : Evolves before engine) :
    Answers law moment horizon before starting answer where
  evolves := evolves.trans answers.evolves
  fresh := fun ticket member issued => answers.fresh ticket member (evolves.issued issued)
  ready := answers.ready

theorem answers_nothing
    (coherent : engine.Coherent law moment horizon starting none []) :
    Answers law moment horizon engine starting (engine, []) :=
  ⟨.refl engine, by simp [Task.started], coherent, by simp⟩

/-- A state reports a match and goes on running; what else is to be done starts nothing. -/
theorem answers_reportMatch
    (coherent : engine.Coherent law moment horizon starting none [])
    (live : engine.states.get? ticket = some state)
    {row : Row}
    (yields : law.yield (moment + 1) state.node state.bindings row)
    {more : List Task}
    (startsNothing : Task.started more = [])
    (apt : ∀ task ∈ more, Apt law moment horizon engine starting task) :
    Answers law moment horizon engine starting
      (engine, reportMatch state ticket row :: more) := by
  refine ⟨.refl engine, ?_, none, ?_, .running live yields, ?_⟩
  · simp only [reportMatch]
    change ∀ other ∈ Task.started more, _
    simp [startsNothing]
  · rw [startsNothing]
    exact coherent
  · rw [startsNothing]
    exact apt

/-- A state reports a match and goes on running, and nothing else is to be done. -/
theorem answers_reportMatch_alone
    (coherent : engine.Coherent law moment horizon starting none [])
    (live : engine.states.get? ticket = some state)
    {row : Row}
    (yields : law.yield (moment + 1) state.node state.bindings row) :
    Answers law moment horizon engine starting (engine, [reportMatch state ticket row]) :=
  answers_reportMatch coherent live yields rfl (by simp)

/-- A state that is gone tells its parent about its last match. -/
theorem answers_finish_last
    (coherent : engine.Coherent law moment horizon starting gap [])
    (live : engine.states.get? ticket = some state)
    (ofOperand :
      ∀ {sender : Ticket} {child : PatternState},
        gap = some (sender, child) → child.parent = some ticket)
    {row : Row}
    (yields : law.yield (moment + 1) state.node state.bindings row)
    (noAbsence : ∀ child, compiled.nodes[state.node]? ≠ some (.negation child)) :
    Answers law moment horizon engine starting (engine.finish ticket (.matched row true)) := by
  obtain ⟨released, evolves⟩ := coherent.release live ofOperand
  simp only [finish, live]
  exact ⟨evolves, by simp [Task.started, Task.started?], some (ticket, state), released,
    .last yields noAbsence, by simp⟩

/-- A state that is gone tells its parent about its failure. -/
theorem answers_finish_failed
    (coherent : engine.Coherent law moment horizon starting gap [])
    (live : engine.states.get? ticket = some state)
    (ofOperand :
      ∀ {sender : Ticket} {child : PatternState},
        gap = some (sender, child) → child.parent = some ticket)
    (restartable : Bool) :
    Answers law moment horizon engine starting (engine.finish ticket (.failed restartable)) := by
  obtain ⟨released, evolves⟩ := coherent.release live ofOperand
  simp only [finish, live]
  exact ⟨evolves, by simp [Task.started, Task.started?], some (ticket, state), released, .failed,
    by simp⟩

end Finish

end Engine

end EventQuery
