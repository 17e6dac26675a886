import EventQuery.Proofs.Pattern.Family

namespace EventQuery

/-!
# Waiting tasks

While an engine performs a task, other tasks wait behind it that start a state or start an operand
over.  Their states stay clear of each other: their nodes are nested neither in each other nor around
the state that is at work, and when a sequence hears of its left operand, nothing that waits is on
its right side.  A sequence may then start its right operand as if nothing waited.
-/

/-- A task that starts a state, or starts its operand over, claims the state. -/
def CompiledPattern.Claims (compiled : CompiledPattern) (number : Nat) (ticket : Ticket)
    (task : Task) : Prop :=
  task.started? = some ticket ∨ compiled.RestartedBy number ticket task

namespace Engine

open CompiledPattern

section Claims

variable {compiled : CompiledPattern} {number : Nat} {ticket : Ticket} {task : Task}

theorem subject?_of_claims
    (claims : compiled.Claims number ticket task) :
    task.subject? = some ticket :=
  claims.elim (fun starts => (Task.subject?_of_started? starts).1) RestartedBy.subject?_eq

theorem not_claims_report
    {receiver : Option Ticket}
    {sender : Ticket}
    {signal : Signal} :
    ¬compiled.Claims number ticket (.report receiver sender signal) := by
  rintro (starts | restarts)
  · cases starts
  · cases restarts

theorem not_claims_absence
    {other : Ticket} :
    ¬compiled.Claims number ticket (.absence other) := by
  rintro (starts | restarts)
  · cases starts
  · cases restarts

end Claims

/-- A node of which a waiting task claims a state. -/
def Waiting (compiled : CompiledPattern) (engine : Engine) (tasks : List Task)
    (number : Nat) : Prop :=
  ∃ task ∈ tasks, ∃ ticket state, engine.states.get? ticket = some state ∧ state.node = number ∧
    compiled.Claims number ticket task

/-- One task may wait while another is performed. -/
def Spaced (compiled : CompiledPattern) (engine : Engine) (task later : Task) : Prop :=
  ∀ (ticket : Ticket) (state : PatternState) (number : Nat),
    task.subject? = some ticket → engine.states.get? ticket = some state →
      Waiting compiled engine [later] number →
        compiled.MayWait state.node number ∧
          (task.started? = some ticket → ¬compiled.Below state.node number)

/-- A task does not start an operand that starts over. -/
def StartsOnce (compiled : CompiledPattern) (engine : Engine) (task : Task) : Prop :=
  ∀ (ticket : Ticket) (state : PatternState) (operator : Nat),
    task.started? = some ticket → engine.states.get? ticket = some state →
      ¬compiled.Repeats operator state.node

/-- Nothing waits on the right side of a sequence that hears of its left operand. -/
def RightIdle (compiled : CompiledPattern) (engine : Engine) : List Task → Prop
  | .report (some receiver) sender _ :: rest =>
      ∀ {owner : PatternState} {left right number : Nat} {rights : List Ticket},
        engine.states.get? receiver = some owner →
          compiled.nodes[owner.node]? = some (.sequence left right) →
            owner.progress = .sequence (some sender) rights →
              Waiting compiled engine rest number → ¬compiled.Below right number
  | _ => True

/-- The tasks of an engine wait clear of each other. -/
structure Orderly (compiled : CompiledPattern) (engine : Engine) (tasks : List Task) : Prop where
  spaced : tasks.Pairwise (Spaced compiled engine)
  once : ∀ task ∈ tasks.tail, StartsOnce compiled engine task
  idle : RightIdle compiled engine tasks

section Ready

variable {compiled : CompiledPattern} {law : RowLaw compiled} {moment horizon : Nat}
  {engine : Engine} {starting : List Ticket} {tasks : List Task} {task : Task}

/-- What waits behind the first task was handed out and is apt. -/
private theorem Ready.exists_apt
    (ready : Ready law moment horizon engine starting tasks)
    (member : task ∈ tasks.tail) :
    ∃ others, Apt law moment horizon engine others task ∧
      ∀ ticket, task.started? = some ticket → engine.states.Issued ticket := by
  cases tasks with
  | nil => cases member
  | cons first rest =>
      have started : ∀ ticket, task.started? = some ticket →
          ticket ∈ Task.started (first :: rest) ++ starting ∧
            ticket ∈ Task.started rest ++ starting := by
        intro ticket starts
        have isStarted : ticket ∈ Task.started rest := List.mem_filterMap.mpr ⟨task, member, starts⟩
        exact ⟨List.mem_append_left _
            (List.mem_filterMap.mpr ⟨task, List.mem_cons_of_mem _ member, starts⟩),
          List.mem_append_left _ isStarted⟩
      cases first with
      | report receiver sender signal =>
          obtain ⟨gap, coherent, _, apt⟩ := ready
          exact ⟨_, apt task member, fun ticket starts =>
            coherent.fresh.issued ticket (started ticket starts).2⟩
      | _ =>
          exact ⟨_, ready.2 task (List.mem_cons_of_mem _ member), fun ticket starts =>
            ready.1.fresh.issued ticket (started ticket starts).1⟩

/-- The states that waiting tasks are about were handed out. -/
theorem Ready.issued
    (ready : Ready law moment horizon engine starting tasks)
    (member : task ∈ tasks.tail)
    {ticket : Ticket}
    (isSubject : task.subject? = some ticket) :
    engine.states.Issued ticket := by
  obtain ⟨others, apt, fresh⟩ := ready.exists_apt member
  cases task with
  | activate state => exact fresh ticket isSubject
  | report receiver sender signal => exact apt.elim
  | expire state => exact Option.some.inj isSubject ▸ apt
  | _ => exact Option.some.inj isSubject ▸ apt.1

/-- Only the first task is a report. -/
theorem Ready.not_report
    (ready : Ready law moment horizon engine starting tasks)
    {receiver : Option Ticket}
    {sender : Ticket}
    {signal : Signal} :
    .report receiver sender signal ∉ tasks.tail := by
  intro member
  obtain ⟨_, apt, _⟩ := ready.exists_apt member
  exact apt

/-- A list of tasks without a report at its head is idle on all right sides. -/
private theorem Ready.rightIdle_tail
    {first : Task}
    {changed : Engine}
    (ready : Ready law moment horizon engine starting (first :: tasks)) :
    RightIdle compiled changed tasks := by
  cases tasks with
  | nil => trivial
  | cons next rest =>
      cases next with
      | report receiver sender signal => exact absurd List.mem_cons_self ready.not_report
      | _ => trivial

end Ready

section Later

variable {compiled : CompiledPattern} {engine after : Engine} {tasks : List Task} {number : Nat}

/-- What waits after a task waited before it. -/
theorem Waiting.before
    (waiting : Waiting compiled after tasks number)
    (evolves : Evolves engine after)
    (issued :
      ∀ task ∈ tasks, ∀ {ticket : Ticket}, task.subject? = some ticket →
        engine.states.Issued ticket) :
    Waiting compiled engine tasks number := by
  obtain ⟨task, member, ticket, state, live, sameNode, claims⟩ := waiting
  obtain ⟨earlier, wasLive, node, _⟩ :=
    evolves.same (issued task member (subject?_of_claims claims)) live
  exact ⟨task, member, ticket, earlier, wasLive, node.symm.trans sameNode, claims⟩

theorem Waiting.mono
    {others : List Task}
    (waiting : Waiting compiled engine tasks number)
    (subset : tasks ⊆ others) :
    Waiting compiled engine others number := by
  obtain ⟨task, member, others⟩ := waiting
  exact ⟨task, subset member, others⟩

/-- Tasks that wait keep clear of each other while another is performed. -/
theorem Spaced.later
    {task later : Task}
    (spaced : Spaced compiled engine task later)
    (evolves : Evolves engine after)
    (issued :
      ∀ waiting ∈ [task, later], ∀ {ticket : Ticket}, waiting.subject? = some ticket →
        engine.states.Issued ticket) :
    Spaced compiled after task later := by
  intro ticket state number isSubject live waiting
  obtain ⟨earlier, wasLive, sameNode, _⟩ :=
    evolves.same (issued task (by simp) isSubject) live
  rw [sameNode]
  exact spaced ticket earlier number isSubject wasLive
    (waiting.before evolves fun other member => issued other (List.mem_cons_of_mem _ member))

theorem StartsOnce.later
    {task : Task}
    (once : StartsOnce compiled engine task)
    (evolves : Evolves engine after)
    (issued :
      ∀ {ticket : Ticket}, task.subject? = some ticket → engine.states.Issued ticket) :
    StartsOnce compiled after task := by
  intro ticket state operator starts live
  obtain ⟨earlier, wasLive, sameNode, _⟩ :=
    evolves.same (issued (Task.subject?_of_started? starts).1) live
  exact sameNode ▸ once ticket earlier operator starts wasLive

end Later

section Perform

variable {compiled : CompiledPattern} {law : RowLaw compiled} {moment horizon : Nat}
  {engine : Engine} {starting : List Ticket} {task : Task} {rest : List Task}
  {answer : Engine × List Task}

/-- What waits behind a task waits for the state that it is about. -/
theorem Orderly.mayWait
    (orderly : Orderly compiled engine (task :: rest))
    {ticket : Ticket}
    {state : PatternState}
    {number : Nat}
    (isSubject : task.subject? = some ticket)
    (live : engine.states.get? ticket = some state)
    (waiting : Waiting compiled engine rest number) :
    compiled.MayWait state.node number ∧
      (task.started? = some ticket → ¬compiled.Below state.node number) := by
  obtain ⟨later, member, other⟩ := waiting
  exact (List.pairwise_cons.mp orderly.spaced).1 later member ticket state number isSubject live
    ⟨later, List.mem_singleton_self later, other⟩

/-- What a state reports to its parent keeps clear of what waits. -/
private theorem spaced_report
    {after : Engine}
    {gap : Option (Ticket × PatternState)}
    {ticket : Ticket}
    {state : PatternState}
    {signal : Signal}
    {later : Task}
    (table : compiled.Sound)
    (coherent : engine.Coherent law moment horizon starting gap [])
    (evolves : Evolves engine after)
    (live : engine.states.get? ticket = some state)
    (waits :
      ∀ {number : Nat}, Waiting compiled after [later] number →
        compiled.MayWait state.node number ∨ number = state.node) :
    Spaced compiled after (.report state.parent ticket signal) later := by
  intro parent owner number hasParent ownerLive waiting
  obtain ⟨_, earlier, wasLive, isOperand, _⟩ := coherent.exists_owner live hasParent
  obtain ⟨_, same, sameNode, _⟩ := evolves.same (.inl ⟨earlier, wasLive⟩) ownerLive
  cases wasLive.symm.trans same
  refine ⟨?_, fun starts => by cases starts⟩
  rw [sameNode]
  rcases waits waiting with mayWait | rfl
  · exact mayWait.toOperator isOperand
  · exact mayWait_operand table isOperand

/-- What a state reports to its parent finds the right side idle. -/
private theorem rightIdle_report
    {after : Engine}
    {gap : Option (Ticket × PatternState)}
    {ticket : Ticket}
    {state : PatternState}
    {signal : Signal}
    {others : List Task}
    (table : compiled.Sound)
    (coherent : engine.Coherent law moment horizon starting gap [])
    (barren : Barren engine after ticket)
    (live : engine.states.get? ticket = some state)
    (waits :
      ∀ {number : Nat}, Waiting compiled after others number →
        compiled.MayWait state.node number ∨ number = state.node) :
    RightIdle compiled after (.report state.parent ticket signal :: others) := by
  cases hasParent : state.parent with
  | none => trivial
  | some parent =>
      intro owner left right number rights ownerLive atNode shape waiting below
      obtain ⟨different, earlier, wasLive, _⟩ := coherent.exists_owner live hasParent
      have same := barren.steady.others (.inl ⟨earlier, wasLive⟩) different ownerLive
      have isLeft := coherent.node_of_left live hasParent same atNode shape
      rcases waits waiting with mayWait | rfl
      · exact (isLeft ▸ mayWait).not_below_right atNode below
      · exact not_below_sides table atNode (isLeft ▸ .refl) below

/-- The tasks behind the one that is performed keep clear of each other. -/
private theorem Orderly.spaced_rest
    {after : Engine}
    (orderly : Orderly compiled engine (task :: rest))
    (ready : Ready law moment horizon engine starting (task :: rest))
    (evolves : Evolves engine after) :
    rest.Pairwise (Spaced compiled after) := by
  refine (List.pairwise_cons.mp orderly.spaced).2.imp_of_mem ?_
  intro first second isFirst isSecond spaced
  refine spaced.later evolves fun waiting member => ready.issued (?_ : waiting ∈ rest)
  rcases List.mem_cons.mp member with rfl | isLast
  · exact isFirst
  · exact List.mem_singleton.mp isLast ▸ isSecond

/-- Waiting tasks stay in order behind what a state reports, and behind its asking to start over. -/
private theorem Barren.orderly
    {after : Engine}
    {ticket : Ticket}
    {tasks : List Task}
    (table : compiled.Sound)
    (ready : Ready law moment horizon engine starting (task :: rest))
    (orderly : Orderly compiled engine (task :: rest))
    (barren : Barren engine after ticket)
    (isSubject : task.subject? = some ticket)
    (nodup : tasks.Nodup)
    (replies :
      ∀ next ∈ tasks, ∃ state, engine.states.get? ticket = some state ∧
        ((∃ signal, next = .report state.parent ticket signal) ∨
          compiled.RestartedBy state.node ticket next)) :
    Orderly compiled after (tasks ++ rest) := by
  obtain ⟨_, gap, coherent⟩ := ready.exists_coherent
  have evolves := barren.steady.evolves
  have issued : ∀ later ∈ rest, ∀ {other : Ticket}, later.subject? = some other →
      engine.states.Issued other := fun later member _ => ready.issued member
  -- What waits behind the task waits for the state, and among the replies only the state waits.
  have waitsFor : ∀ {state : PatternState} {number : Nat}, engine.states.get? ticket = some state →
      Waiting compiled after rest number → compiled.MayWait state.node number :=
    fun live waiting => (orderly.mayWait isSubject live (waiting.before evolves issued)).1
  have isOwn : ∀ {state : PatternState} {number : Nat}, engine.states.get? ticket = some state →
      Waiting compiled after tasks number → number = state.node := by
    rintro state number live ⟨next, member, other, found, foundLive, rfl, claims⟩
    obtain ⟨same, sameLive, ⟨signal, rfl⟩ | restarted⟩ := replies next member
    · exact absurd claims not_claims_report
    · cases live.symm.trans sameLive
      cases (subject?_of_claims claims).symm.trans restarted.subject?_eq
      obtain ⟨_, wasLive, sameNode, _⟩ := barren.found foundLive
      cases live.symm.trans wasLive
      exact sameNode
  constructor
  case spaced =>
      refine List.pairwise_append.mpr ⟨?_, ?_, ?_⟩
      · refine nodup.imp_of_mem fun {first second} isFirst isSecond different => ?_
        obtain ⟨state, live, ⟨signal, rfl⟩ | restarted⟩ := replies first isFirst
        · refine spaced_report table coherent evolves live fun waiting => .inr (isOwn live ?_)
          exact waiting.mono (List.cons_subset.mpr ⟨isSecond, List.nil_subset _⟩)
        · rintro _ _ number _ _ ⟨next, member, other, found, foundLive, _, claims⟩
          cases List.mem_singleton.mp member
          obtain ⟨same, sameLive, ⟨signal, rfl⟩ | again⟩ := replies second isSecond
          · exact absurd claims not_claims_report
          · cases live.symm.trans sameLive
            exact absurd (restarted.unique again) different
      · exact orderly.spaced_rest ready evolves
      · intro next isNext later isLater
        have subset := List.cons_subset.mpr ⟨isLater, List.nil_subset rest⟩
        obtain ⟨state, live, ⟨signal, rfl⟩ | restarted⟩ := replies next isNext
        · exact spaced_report table coherent evolves live fun waiting =>
            .inl (waitsFor live (waiting.mono subset))
        · intro other found number isOther foundLive waiting
          cases isOther.symm.trans restarted.subject?_eq
          obtain ⟨_, wasLive, sameNode, _⟩ := barren.found foundLive
          cases live.symm.trans wasLive
          refine ⟨sameNode ▸ waitsFor live (waiting.mono subset), fun starts => ?_⟩
          cases restarted <;> cases starts
  case once =>
      intro next member ticket state operator starts
      rcases List.mem_append.mp (List.mem_of_mem_tail member) with isReply | later
      · obtain ⟨_, _, ⟨_, rfl⟩ | restarted⟩ := replies next isReply
        · cases starts
        · cases restarted <;> cases starts
      · exact (orderly.once next later).later evolves (issued next later) ticket state operator
          starts
  case idle =>
      cases tasks with
      | nil => exact ready.rightIdle_tail
      | cons next more =>
          obtain ⟨state, live, ⟨signal, rfl⟩ | restarted⟩ := replies next List.mem_cons_self
          · refine rightIdle_report table coherent barren live fun waiting => ?_
            obtain ⟨later, member, other⟩ := waiting
            rcases List.mem_append.mp member with isReply | isLater
            · exact .inr (isOwn live ⟨later, List.mem_cons_of_mem _ isReply, other⟩)
            · exact .inl (waitsFor live ⟨later, isLater, other⟩)
          · cases restarted <;> trivial

/-- A right operand that starts keeps clear of what waits. -/
private theorem orderly_continued
    {after : Engine}
    {receiver sender birth : Ticket}
    {signal : Signal}
    {owner state : PatternState}
    {left right : Nat}
    {rights : List Ticket}
    (table : compiled.Sound)
    (ready : Ready law moment horizon engine starting
      (.report (some receiver) sender signal :: rest))
    (orderly : Orderly compiled engine (.report (some receiver) sender signal :: rest))
    (live : engine.states.get? receiver = some owner)
    (atNode : compiled.nodes[owner.node]? = some (.sequence left right))
    (shape : owner.progress = .sequence (some sender) rights)
    (evolves : Evolves engine after)
    (birthLive : after.states.get? birth = some state)
    (isRight : state.node = right) :
    Orderly compiled after (.activate birth :: rest) where
  spaced := by
    refine List.pairwise_cons.mpr ⟨?_, orderly.spaced_rest ready evolves⟩
    intro later member ticket found number isSubject foundLive waiting
    cases isSubject
    cases birthLive.symm.trans foundLive
    have waited := (waiting.mono (List.cons_subset.mpr ⟨member, List.nil_subset rest⟩)).before
      evolves fun _ isLater _ => ready.issued isLater
    have beside := (orderly.mayWait rfl live waited).1.beside_right table atNode
      (orderly.idle live atNode shape waited)
    rw [isRight]
    exact ⟨beside.toMayWait, fun _ => beside.notBelow⟩
  once := fun next member => (orderly.once next member).later evolves (ready.issued member)
  idle := trivial

/-- What waits below an operand that starts over would have been started with it. -/
private theorem not_below_repeated
    {gap : Option (Ticket × PatternState)}
    {ticket : Ticket}
    {owner : PatternState}
    {child number : Nat}
    (table : compiled.Sound)
    (restarts : compiled.RestartsLeaves)
    (coherent : engine.Coherent law moment horizon starting gap [])
    (siblings : Siblings compiled engine)
    (once : ∀ later ∈ rest, StartsOnce compiled engine later)
    (live : engine.states.get? ticket = some owner)
    (childless : owner.progress.children = [])
    (repeats : compiled.Repeats owner.node child)
    (waiting : Waiting compiled engine rest number) :
    ¬compiled.Below child number := by
  intro below
  obtain ⟨later, member, other, state, otherLive, rfl, claims⟩ := waiting
  by_cases onRight : compiled.OnRight owner.node
  · -- On a right side a leaf starts over, and only its operator claims it.
    have isLeaf := restarts onRight repeats
    have same := isLeaf.eq_of_below below
    rcases claims with starts | restarted
    · exact once later member other state owner.node starts otherLive (same ▸ repeats)
    · obtain ⟨_, again⟩ := restarted.exists_repeats
      exact (same ▸ isLeaf).not_operand again.isOperand
  · exact coherent.not_below_of_childless table siblings live onRight childless repeats.isOperand
      otherLive below

private theorem Opens.operand_of_birth
    {after : Engine}
    {ticket birth : Ticket}
    {owner state : PatternState}
    {births : List Ticket}
    (opens : Opens compiled engine after ticket owner births)
    (member : birth ∈ births)
    (birthLive : after.states.get? birth = some state) :
    compiled.IsOperand owner.node state.node ∧ ¬compiled.IsRight state.node := by
  obtain ⟨_, _, sameLive, _, isOperand, notRight, _⟩ := opens.born birth member
  cases birthLive.symm.trans sameLive
  exact ⟨isOperand, notRight⟩

/-- Operands that start together keep clear of each other. -/
private theorem Opens.spaced_births
    {after : Engine}
    {ticket : Ticket}
    {owner : PatternState}
    {births : List Ticket}
    {begin : Ticket → Task}
    (table : compiled.Sound)
    (opens : Opens compiled engine after ticket owner births)
    (begins : ∀ birth, (begin birth).started? = some birth) :
    (births.map begin).Pairwise (Spaced compiled after) := by
  refine List.pairwise_map.mpr (opens.nodup.imp_of_mem ?_)
  rintro first second isFirst isSecond different birth state number isBirth birthLive
    ⟨later, isLater, other, found, foundLive, rfl, claims⟩
  cases List.mem_singleton.mp isLater
  cases isBirth.symm.trans (Task.subject?_of_started? (begins first)).1
  cases (subject?_of_claims claims).symm.trans (Task.subject?_of_started? (begins second)).1
  have isOperand := opens.operand_of_birth isFirst birthLive
  have isOther := opens.operand_of_birth isSecond foundLive
  have beside := beside_operands table isOperand.1 isOther.1
    (fun same => different (opens.apart isFirst isSecond birthLive foundLive same)) isOther.2
  exact ⟨beside.toMayWait, fun _ => beside.notBelow⟩

/-- What starts more than one operand does not start one over. -/
private theorem Opens.startsOnce
    {after : Engine}
    {ticket first birth : Ticket}
    {owner : PatternState}
    {more : List Ticket}
    {begin : Ticket → Task}
    (table : compiled.Sound)
    (opens : Opens compiled engine after ticket owner (first :: more))
    (begins : ∀ birth, (begin birth).started? = some birth)
    (inMore : birth ∈ more) :
    StartsOnce compiled after (begin birth) := by
  intro other state operator starts live repeats
  cases starts.symm.trans (begins birth)
  have isBirth := List.mem_cons_of_mem first inMore
  obtain ⟨_, held, firstLive, _, isFirst, _⟩ := opens.born first List.mem_cons_self
  have isOperand := (opens.operand_of_birth isBirth live).1
  cases table.operatorUnique repeats.isOperand isOperand
  have same := opens.apart List.mem_cons_self isBirth firstLive live (repeats.unique isFirst)
  exact (List.nodup_cons.mp opens.nodup).1 (same ▸ inMore)

/-- Operands that start keep clear of each other and of what waits. -/
private theorem Opens.orderly
    {after : Engine}
    {ticket : Ticket}
    {owner : PatternState}
    {births : List Ticket}
    {begin : Ticket → Task}
    {others : List Task}
    (table : compiled.Sound)
    (restarts : compiled.RestartsLeaves)
    (ready : Ready law moment horizon engine starting (task :: rest))
    (siblings : Siblings compiled engine)
    (orderly : Orderly compiled engine (task :: rest))
    (isSubject : task.subject? = some ticket)
    (reason : task.started? = some ticket ∨ ∃ child, compiled.Repeats owner.node child)
    (opens : Opens compiled engine after ticket owner births)
    (begins : ∀ birth, (begin birth).started? = some birth)
    (only : ∀ next ∈ others, next = .absence ticket) :
    Orderly compiled after (births.map begin ++ others ++ rest) := by
  obtain ⟨_, gap, coherent⟩ := ready.exists_coherent
  have evolves := opens.steady.evolves
  have live := opens.live
  have waited : ∀ {later : Task} {number : Nat}, later ∈ rest →
      Waiting compiled after [later] number → Waiting compiled engine rest number := by
    intro later number member waiting
    exact (waiting.mono (List.cons_subset.mpr ⟨member, List.nil_subset rest⟩)).before evolves
      fun _ isLater _ => ready.issued isLater
  -- What waits behind the task is beside every operand that starts.
  have besideRest : ∀ {number child : Nat}, Waiting compiled engine rest number →
      compiled.IsOperand owner.node child → compiled.Beside child number := by
    intro number child waiting isOperand
    have mayWait := orderly.mayWait isSubject live waiting
    rcases reason with starts | ⟨repeated, repeats⟩
    · exact Beside.of_operand table ⟨mayWait.1, mayWait.2 starts⟩ isOperand
    · cases repeats.unique isOperand
      exact mayWait.1.beside_repeated table repeats
        (not_below_repeated table restarts coherent siblings orderly.once live opens.childless
          repeats waiting)
  have unclaimed : ∀ {first second : Task}, second ∈ others →
      Spaced compiled after first second := by
    rintro first second member _ _ number _ _ ⟨later, isLater, _, _, _, _, claims⟩
    cases List.mem_singleton.mp isLater
    cases only second member
    exact absurd claims not_claims_absence
  constructor
  case spaced =>
      refine List.pairwise_append.mpr ⟨List.pairwise_append.mpr
        ⟨opens.spaced_births table begins, ?_, ?_⟩, orderly.spaced_rest ready evolves, ?_⟩
      · exact List.pairwise_of_forall_mem_list fun _ _ _ isSecond => unclaimed isSecond
      · exact fun _ _ _ isSecond => unclaimed isSecond
      · intro next isNext later isLater other state number isOther stateLive waiting
        rcases List.mem_append.mp isNext with isBegin | isAbsence
        · obtain ⟨birth, isBirth, rfl⟩ := List.mem_map.mp isBegin
          cases isOther.symm.trans (Task.subject?_of_started? (begins birth)).1
          have beside :=
            besideRest (waited isLater waiting) (opens.operand_of_birth isBirth stateLive).1
          exact ⟨beside.toMayWait, fun _ => beside.notBelow⟩
        · cases only next isAbsence
          cases isOther
          obtain ⟨_, wasLive, sameNode, _⟩ := evolves.same (.inl ⟨owner, live⟩) stateLive
          cases live.symm.trans wasLive
          rw [sameNode]
          exact ⟨(orderly.mayWait isSubject live (waited isLater waiting)).1,
            fun starts => by cases starts⟩
  case once =>
      intro next member
      obtain ⟨first, more, rfl⟩ := List.exists_cons_of_ne_nil opens.nonempty
      have member : next ∈ more.map begin ++ others ++ rest := member
      rcases List.mem_append.mp member with isNew | later
      · rcases List.mem_append.mp isNew with isBegin | isAbsence
        · obtain ⟨birth, inMore, rfl⟩ := List.mem_map.mp isBegin
          exact opens.startsOnce table begins inMore
        · intro other state operator starts
          cases only next isAbsence
          cases starts
      · exact (orderly.once next later).later evolves (ready.issued later)
  case idle =>
      obtain ⟨first, more, rfl⟩ := List.exists_cons_of_ne_nil opens.nonempty
      have starts := begins first
      simp only [List.map_cons, List.cons_append]
      cases isBegin : begin first with
      | report receiver sender signal =>
          rw [isBegin] at starts
          cases starts
      | _ => trivial

/-- Performing a task keeps the waiting tasks in order. -/
theorem Orderly.perform
    (table : compiled.Sound)
    (restarts : compiled.RestartsLeaves)
    (ready : Ready law moment horizon engine starting (task :: rest))
    (siblings : Siblings compiled engine)
    (orderly : Orderly compiled engine (task :: rest)) :
    Orderly compiled (engine.perform task).1 ((engine.perform task).2 ++ rest) := by
  have outcome := outcome_perform table ready
  generalize engine.perform task = answer at outcome
  cases outcome with
  | concluded sameStates =>
      have evolves := Evolves.of_states_eq sameStates
      exact ⟨orderly.spaced_rest ready evolves,
        fun next member => (orderly.once next (List.mem_of_mem_tail member)).later evolves
          (ready.issued (List.mem_of_mem_tail member)),
        ready.rightIdle_tail⟩
  | rested isSubject barren nodup replies _ =>
      refine barren.orderly table ready orderly isSubject nodup fun next member => ?_
      obtain ⟨state, signal, live, isReport, _⟩ := replies next member
      exact ⟨state, live, .inl ⟨signal, isReport⟩⟩
  | heard live _ barren nodup replies _ =>
      exact barren.orderly table ready orderly rfl nodup fun next member =>
        ⟨_, live, replies next member⟩
  | continued live atNode shape _ steady _ birthLive isRight _ _ _ =>
      exact orderly_continued table ready orderly live atNode shape steady.evolves birthLive isRight
  | opened isSubject _ reason opens begins only =>
      exact opens.orderly table restarts ready siblings orderly isSubject reason begins only

end Perform

end Engine

end EventQuery
