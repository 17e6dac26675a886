import EventQuery.Proofs.Pattern.Places
import EventQuery.Proofs.Pattern.Spacing

namespace EventQuery

/-!
# Seats on right sides

A live state on a right side has a seat at its node when the node is a place for leaves.  A state
that does not run yet has a seat at every place below its node, since its start may create states for
them all.  While an engine works, seats are given up and handed on, and new ones come only with a
right operand that starts.  Then fewer leaves than the limit are live, and the seats without a live
leaf are those of different places, none of them below the right operand.
-/

namespace Engine

open CompiledPattern

/-- The seats that live states have on right sides, with the tasks that are due. -/
def seats (compiled : CompiledPattern) (engine : Engine) (tasks : List Task) :
    Set (Ticket × Nat) :=
  {seat | ∃ state, engine.states.get? seat.1 = some state ∧ compiled.OnRight state.node ∧
    compiled.IsPlace seat.2 ∧
      (seat.2 = state.node ∨ seat.1 ∈ Task.started tasks ∧ compiled.Below state.node seat.2)}

/-- The leaves that are live and run. -/
def runningLeaves (engine : Engine) (starting : List Ticket) : Set Ticket :=
  {ticket | ∃ state, engine.states.get? ticket = some state ∧ state.isLeaf = true ∧
    ticket ∉ starting}

/-- The leaves that run are counted. -/
theorem Coherent.encard_runningLeaves_le
    {compiled : CompiledPattern}
    {law : RowLaw compiled}
    {moment horizon : Nat}
    {engine : Engine}
    {starting : List Ticket}
    {gap : Option (Ticket × PatternState)}
    (coherent : engine.Coherent law moment horizon starting gap []) :
    (engine.runningLeaves starting).encard ≤ engine.leaves := by
  let isLeafAt := fun ticket => (engine.states.get? ticket).any PatternState.isLeaf
  have isUnion : engine.runningLeaves starting ∪ {ticket | ticket ∈ starting ∧ isLeafAt ticket} =
      {ticket | ∃ state, engine.states.get? ticket = some state ∧ state.isLeaf = true} := by
    ext ticket
    constructor
    · rintro (⟨state, live, isLeaf, _⟩ | ⟨_, isLeaf⟩)
      · exact ⟨state, live, isLeaf⟩
      · exact (Option.any_eq_true _ _).mp isLeaf
    · rintro ⟨state, live, isLeaf⟩
      by_cases starts : ticket ∈ starting
      · exact .inr ⟨starts, (Option.any_eq_true _ _).mpr ⟨state, live, isLeaf⟩⟩
      · exact .inl ⟨state, live, isLeaf, starts⟩
  have apart : Disjoint (engine.runningLeaves starting)
      {ticket | ticket ∈ starting ∧ isLeafAt ticket} := by
    rw [Set.disjoint_left]
    exact fun ticket ⟨_, _, _, runs⟩ starts => runs starts.1
  have startingLeaves : (starting.countP isLeafAt : ℕ∞) ≤
      {ticket | ticket ∈ starting ∧ isLeafAt ticket}.encard := by
    rw [← encard_indexes]
    refine encard_le_of_relates (fun index ticket => starting[index]? = some ticket) ?_ ?_
    · rintro index ⟨ticket, atIndex, isLeaf⟩
      exact ⟨ticket, ⟨List.mem_of_getElem? atIndex, isLeaf⟩, atIndex⟩
    · rintro first ⟨_, atFirst, _⟩ second _ ticket isFirst isSecond
      have inRange := (List.getElem?_eq_some_iff.mp atFirst).1
      exact (List.getElem?_inj inRange coherent.fresh.nodup).mp (isFirst.trans isSecond.symm)
  have counted := congrArg (fun leaves : Nat => (leaves : ℕ∞)) coherent.indexed.leaves
  simp only [Nat.cast_add] at counted
  rw [← Pool.encard_tickets, ← isUnion, Set.encard_union_eq apart] at counted
  refine (ENat.add_le_add_iff_right (ENat.natCast_ne_top (starting.countP isLeafAt))).mp ?_
  exact (add_le_add_right startingLeaves _).trans counted.ge

/-- A task that waits claims the state of a seat: it starts the state, or its leaf over. -/
def IsClaimed (compiled : CompiledPattern) (engine : Engine) (tasks : List Task)
    (seat : Ticket × Nat) : Prop :=
  ∃ task ∈ tasks, ∃ state, engine.states.get? seat.1 = some state ∧
    compiled.Below state.node seat.2 ∧
      (task.started? = some seat.1 ∨
        compiled.RestartedBy state.node seat.1 task ∧ seat.2 = state.node)

/-- A leaf takes a seat: its own one, or that of the state that starts it over. -/
def Occupies (compiled : CompiledPattern) (engine : Engine) (seat : Ticket × Nat)
    (leaf : Ticket) : Prop :=
  ∃ state, engine.states.get? leaf = some state ∧
    ((leaf = seat.1 ∧ seat.2 = state.node ∧ ∀ operator, ¬compiled.Repeats operator state.node) ∨
      state.parent = some seat.1 ∧ compiled.Repeats seat.2 state.node)

section Admission

variable {compiled : CompiledPattern} {law : RowLaw compiled} {moment horizon : Nat}
  {engine : Engine} {receiver sender : Ticket} {signal : Signal} {rest : List Task}
  {owner : PatternState} {left right : Nat} {rights : List Ticket}

/-- A state that runs a leaf is a leaf. -/
theorem Coherent.isLeaf
    {starting : List Ticket}
    {gap : Option (Ticket × PatternState)}
    {ticket : Ticket}
    {state : PatternState}
    (coherent : engine.Coherent law moment horizon starting gap [])
    (live : engine.states.get? ticket = some state)
    (isLeaf : compiled.IsLeaf state.node) :
    state.isLeaf = true := by
  obtain ⟨node, atNode, fits⟩ := coherent.kept.fits live
  obtain ⟨same, atSame, isLeaf⟩ := isLeaf
  cases atNode.symm.trans atSame
  rw [PatternState.isLeaf]
  generalize state.progress = progress at fits
  cases fits <;> first | rfl | cases isLeaf

/-- What is gone reports to its parent. -/
private theorem Reports.parent_of_gap
    {gap : Option (Ticket × PatternState)}
    {target : Option Ticket}
    {gone : Ticket}
    {held : PatternState}
    (reports : Reports law moment engine gap target sender signal)
    (isGap : gap = some (gone, held)) :
    held.parent = target := by
  cases reports with
  | running _ _ => cases isGap
  | last _ _ =>
      cases isGap
      rfl
  | failed =>
      cases isGap
      rfl

/-- A leaf takes one seat. -/
private theorem Occupies.unique
    {first second : Ticket × Nat}
    {leaf : Ticket}
    (table : compiled.Sound)
    (inFirst : Occupies compiled engine first leaf)
    (inSecond : Occupies compiled engine second leaf) :
    first = second := by
  obtain ⟨state, live, ⟨isFirst, firstPlace, unrepeated⟩ | ⟨isFirst, repeats⟩⟩ := inFirst
  · obtain ⟨same, sameLive, ⟨isSecond, secondPlace, _⟩ | ⟨_, repeats⟩⟩ := inSecond
    · cases live.symm.trans sameLive
      exact Prod.ext (isFirst.symm.trans isSecond) (firstPlace.trans secondPlace.symm)
    · cases live.symm.trans sameLive
      exact absurd repeats (unrepeated second.2)
  · obtain ⟨same, sameLive, ⟨_, _, unrepeated⟩ | ⟨isSecond, repeatsToo⟩⟩ := inSecond
    · cases live.symm.trans sameLive
      exact absurd repeats (unrepeated first.2)
    · cases live.symm.trans sameLive
      exact Prod.ext (Option.some.inj (isFirst.symm.trans isSecond))
        (table.operatorUnique repeats.isOperand repeatsToo.isOperand)

/-- When a sequence hears of an operand, a leaf runs in every seat that no task claims. -/
private theorem exists_occupies
    {seat : Ticket × Nat}
    (restarts : compiled.RestartsLeaves)
    (ready : Ready law moment horizon engine [] (.report (some receiver) sender signal :: rest))
    (orderly : Orderly compiled engine (.report (some receiver) sender signal :: rest))
    (startsOver : StartsOver compiled engine (.report (some receiver) sender signal :: rest))
    (ownerLive : engine.states.get? receiver = some owner)
    (atNode : compiled.nodes[owner.node]? = some (.sequence left right))
    (isSeat : seat ∈ seats compiled engine (.report (some receiver) sender signal :: rest))
    (unclaimed : ¬IsClaimed compiled engine rest seat) :
    ∃ leaf ∈ engine.runningLeaves (Task.started rest), Occupies compiled engine seat leaf := by
  obtain ⟨gap, coherent, reports, _⟩ := ready
  rw [List.append_nil] at coherent
  obtain ⟨state, live, onRight, isPlace, sits⟩ := isSeat
  have runs : seat.1 ∉ Task.started rest := by
    intro starts
    obtain ⟨task, member, isStarted⟩ := List.mem_filterMap.mp starts
    refine unclaimed ⟨task, member, state, live, ?_, .inl isStarted⟩
    exact sits.elim (fun same => same ▸ .refl) And.right
  have isOwn := sits.resolve_right fun starts => runs starts.1
  rw [isOwn] at isPlace
  rcases isPlace with ⟨child, repeats⟩ | ⟨isLeaf, unrepeated⟩
  · obtain ⟨restart, restarted⟩ := repeats.exists_restart seat.1
    -- Its operand runs, or a task that waits starts it over.
    have busy : state.progress.children ≠ [] := by
      intro childless
      rcases startsOver live restarted childless with starts | member
      · exact runs starts
      · rcases List.mem_cons.mp member with rfl | later
        · cases restarted
        · exact unclaimed ⟨restart, later, state, live, isOwn ▸ .refl, .inr ⟨restarted, isOwn⟩⟩
    obtain ⟨leaf, listed⟩ := List.exists_mem_of_ne_nil _ busy
    obtain ⟨_, held, present, hasParent⟩ := coherent.linked.listed live listed
    -- The operand of the sequence that the report is about is another state.
    have heldLive : engine.states.get? leaf = some held := by
      refine present.resolve_right fun isGap => ?_
      have isReceiver := reports.parent_of_gap isGap
      cases hasParent.symm.trans isReceiver
      cases live.symm.trans ownerLive
      rw [Repeats, atNode] at repeats
      cases repeats
    obtain ⟨_, same, sameLive, isOperand, _⟩ := coherent.exists_owner heldLive hasParent
    cases live.symm.trans sameLive
    cases repeats.unique isOperand
    refine ⟨leaf, ⟨held, heldLive, coherent.isLeaf heldLive (restarts onRight repeats), ?_⟩,
      held, heldLive, .inr ⟨hasParent, isOwn ▸ repeats⟩⟩
    intro starts
    obtain ⟨task, member, isStarted⟩ := List.mem_filterMap.mp starts
    exact orderly.once task member leaf held state.node isStarted heldLive repeats
  · exact ⟨seat.1, ⟨state, live, coherent.isLeaf live isLeaf, runs⟩, state, live,
      .inl ⟨rfl, isOwn, unrepeated⟩⟩

private theorem IsClaimed.waiting
    {seat : Ticket × Nat}
    (isClaimed : IsClaimed compiled engine rest seat) :
    ∃ number, Waiting compiled engine rest number ∧ compiled.Below number seat.2 := by
  obtain ⟨task, member, state, live, below, claims⟩ := isClaimed
  exact ⟨state.node, ⟨task, member, seat.1, state, live, rfl, claims.imp_right And.left⟩, below⟩

/-- Two tasks that keep clear of each other claim no seats at one place. -/
private theorem Spaced.not_claimed
    {task later : Task}
    {first second : Ticket × Nat}
    (table : compiled.Sound)
    (spaced : Spaced compiled engine task later)
    (isFirst : IsClaimed compiled engine [task] first)
    (isSecond : IsClaimed compiled engine [later] second) :
    first.2 ≠ second.2 := by
  intro same
  obtain ⟨number, waiting, ofSecond⟩ := isSecond.waiting
  obtain ⟨_, member, state, live, ofFirst, claims⟩ := isFirst
  cases List.mem_singleton.mp member
  have isSubject : task.subject? = some first.1 :=
    subject?_of_claims (claims.imp_right And.left)
  obtain ⟨mayWait, apart⟩ := spaced first.1 state number isSubject live waiting
  rw [← same] at ofSecond
  rcases ofFirst.total table ofSecond with below | above
  · rcases claims with starts | ⟨_, isOwn⟩
    · exact apart starts below
    · exact mayWait.notAbove (isOwn ▸ ofSecond)
  · exact mayWait.notAbove above

/-- Tasks that wait claim one seat at a place. -/
private theorem Orderly.claimed_unique
    {task : Task}
    {first second : Ticket × Nat}
    (table : compiled.Sound)
    (orderly : Orderly compiled engine (task :: rest))
    (isFirst : IsClaimed compiled engine rest first)
    (isSecond : IsClaimed compiled engine rest second)
    (same : first.2 = second.2) :
    first = second := by
  obtain ⟨firstTask, inRest, firstClaims⟩ := isFirst
  obtain ⟨secondTask, alsoInRest, secondClaims⟩ := isSecond
  have firstOwn : IsClaimed compiled engine [firstTask] first :=
    ⟨firstTask, List.mem_singleton_self _, firstClaims⟩
  have secondOwn : IsClaimed compiled engine [secondTask] second :=
    ⟨secondTask, List.mem_singleton_self _, secondClaims⟩
  by_cases sameTask : firstTask = secondTask
  · obtain ⟨_, _, _, starts⟩ := firstClaims
    obtain ⟨_, _, _, startsToo⟩ := secondClaims
    have isSubject := subject?_of_claims (starts.imp_right And.left)
    have isSubjectToo := subject?_of_claims (startsToo.imp_right And.left)
    rw [sameTask] at isSubject
    exact Prod.ext (Option.some.inj (isSubject.symm.trans isSubjectToo)) same
  · have symmetric : Std.Symm fun one other : Task =>
        Spaced compiled engine one other ∨ Spaced compiled engine other one :=
      ⟨fun _ _ => Or.symm⟩
    have clear : rest.Pairwise fun one other : Task =>
        Spaced compiled engine one other ∨ Spaced compiled engine other one :=
      (List.pairwise_cons.mp orderly.spaced).2.imp fun spaced => .inl spaced
    rcases clear.forall inRest alsoInRest sameTask with spaced | spaced
    · exact absurd same (spaced.not_claimed table firstOwn secondOwn)
    · exact absurd same.symm (spaced.not_claimed table secondOwn firstOwn)

/--
When a sequence starts its right operand, the seats that there are and the places below the operand
are no more than the leaves that run and the places on right sides.
-/
theorem Orderly.encard_seats_add_le
    (table : compiled.Sound)
    (restarts : compiled.RestartsLeaves)
    (ready : Ready law moment horizon engine [] (.report (some receiver) sender signal :: rest))
    (orderly : Orderly compiled engine (.report (some receiver) sender signal :: rest))
    (startsOver : StartsOver compiled engine (.report (some receiver) sender signal :: rest))
    (ownerLive : engine.states.get? receiver = some owner)
    (atNode : compiled.nodes[owner.node]? = some (.sequence left right))
    (shape : owner.progress = .sequence (some sender) rights) :
    (seats compiled engine (.report (some receiver) sender signal :: rest)).encard +
        (compiled.placesBelow right).encard ≤
      engine.leaves + compiled.rightPlaces.encard := by
  have taken : (seats compiled engine (.report (some receiver) sender signal :: rest) \
      {seat | IsClaimed compiled engine rest seat}).encard ≤ engine.leaves := by
    have counted : (engine.runningLeaves (Task.started rest)).encard ≤ engine.leaves := by
      obtain ⟨gap, coherent, _⟩ := ready
      rw [List.append_nil] at coherent
      exact coherent.encard_runningLeaves_le
    refine le_trans (encard_le_of_relates (Occupies compiled engine) ?_ ?_) counted
    · exact fun seat isSeat =>
        exists_occupies restarts ready orderly startsOver ownerLive atNode isSeat.1 isSeat.2
    · exact fun _ _ _ _ _ inFirst inSecond => inFirst.unique table inSecond
  -- The claimed seats are at different places, and at none below the right operand.
  have claimed : (seats compiled engine (.report (some receiver) sender signal :: rest) ∩
      {seat | IsClaimed compiled engine rest seat}).encard ≤
        (compiled.rightPlaces \ compiled.placesBelow right).encard := by
    refine encard_le_of_relates (fun seat place => seat.2 = place) ?_ ?_
    · rintro seat ⟨⟨state, live, onRight, isPlace, sits⟩, isClaimed⟩
      refine ⟨seat.2, ⟨⟨?_, isPlace⟩, fun isBelow => ?_⟩, rfl⟩
      · exact onRight.below (sits.elim (fun same => same ▸ .refl) And.right)
      · obtain ⟨number, waiting, below⟩ := isClaimed.waiting
        have outside := orderly.idle ownerLive atNode shape waiting
        have beside := (orderly.mayWait rfl ownerLive waiting).1.beside_right table atNode outside
        exact (isBelow.1.total table below).elim outside beside.notAbove
    · exact fun _ isFirst _ isSecond place atFirst atSecond =>
        orderly.claimed_unique table isFirst.2 isSecond.2 (atFirst.trans atSecond.symm)
  have inRight : compiled.placesBelow right ⊆ compiled.rightPlaces :=
    fun place isBelow => ⟨⟨right, ⟨owner.node, left, atNode⟩, isBelow.1⟩, isBelow.2⟩
  rw [← Set.encard_sdiff_add_encard_inter _ {seat | IsClaimed compiled engine rest seat}, add_assoc,
    ← Set.encard_sdiff_add_encard_of_subset inRight]
  exact add_le_add taken (add_le_add_left claimed _)

end Admission

/-- There are no more seats than the limit and the places on right sides. -/
def Seated (compiled : CompiledPattern) (engine : Engine) (tasks : List Task) : Prop :=
  (seats compiled engine tasks).encard ≤ engine.limit + compiled.rightPlaces.encard

section Perform

variable {compiled : CompiledPattern} {law : RowLaw compiled} {moment horizon : Nat}
  {engine after : Engine} {task : Task} {tasks others rest : List Task}

/-- Where nothing is created and nothing starts, seats are at most given up. -/
theorem seats_subset
    (earlier :
      ∀ {ticket : Ticket} {state : PatternState}, after.states.get? ticket = some state →
        ∃ before, engine.states.get? ticket = some before ∧ state.node = before.node)
    (started : ∀ ticket ∈ Task.started others, ticket ∈ Task.started tasks) :
    seats compiled after others ⊆ seats compiled engine tasks := by
  rintro seat ⟨state, live, onRight, isPlace, sits⟩
  obtain ⟨before, wasLive, sameNode⟩ := earlier live
  rw [sameNode] at onRight sits
  exact ⟨before, wasLive, onRight, isPlace, sits.imp_right (And.imp_left (started seat.1))⟩

/-- What starts behind a task starts with it in front as well. -/
private theorem mem_started_cons
    {ticket : Ticket}
    (starts : ticket ∈ Task.started rest) :
    ticket ∈ Task.started (task :: rest) := by
  obtain ⟨later, member, isStarted⟩ := List.mem_filterMap.mp starts
  exact List.mem_filterMap.mpr ⟨later, List.mem_cons_of_mem _ member, isStarted⟩

/-- Tasks that start nothing leave the seats, or give some up. -/
private theorem Barren.seats_subset
    {ticket : Ticket}
    (barren : Barren engine after ticket)
    (startsNothing : ∀ next ∈ tasks, next.started? = none) :
    seats compiled after (tasks ++ rest) ⊆ seats compiled engine (task :: rest) := by
  refine Engine.seats_subset (fun live => ?_) fun other starts => mem_started_cons ?_
  · obtain ⟨before, wasLive, sameNode, _⟩ := barren.found live
    exact ⟨before, wasLive, sameNode⟩
  · obtain ⟨next, member, isStarted⟩ := List.mem_filterMap.mp starts
    rcases List.mem_append.mp member with isNext | later
    · rw [startsNothing next isNext] at isStarted
      cases isStarted
    · exact List.mem_filterMap.mpr ⟨next, later, isStarted⟩

/-- A right operand that starts comes with the seats below it. -/
private theorem seats_subset_of_continued
    {receiver birth : Ticket}
    {state : PatternState}
    (steady : Steady engine after receiver)
    (birthLive : after.states.get? birth = some state)
    (known :
      ∀ {found : Ticket} {other : PatternState}, after.states.get? found = some other →
        engine.states.Issued found ∨ found = birth)
    (notIssued : ¬engine.states.Issued birth) :
    seats compiled after (.activate birth :: rest) ⊆
      seats compiled engine (task :: rest) ∪
        Prod.mk birth '' (compiled.placesBelow state.node) := by
  rintro ⟨ticket, place⟩ ⟨found, live, onRight, isPlace, sits⟩
  rcases known live with issued | rfl
  · obtain ⟨before, wasLive, sameNode, _⟩ := steady.evolves.same issued live
    rw [sameNode] at onRight sits
    refine .inl ⟨before, wasLive, onRight, isPlace, sits.imp_right (And.imp_left fun starts => ?_)⟩
    rcases List.mem_cons.mp starts with rfl | later
    · exact absurd issued notIssued
    · exact mem_started_cons later
  · cases birthLive.symm.trans live
    exact .inr ⟨place, ⟨sits.elim (fun same => same ▸ .refl) And.right, isPlace⟩, rfl⟩

/-- The tasks that are due start every state once. -/
private theorem Ready.nodup_started
    {starting : List Ticket}
    (ready : Ready law moment horizon engine starting tasks) :
    (Task.started tasks).Nodup := by
  cases tasks with
  | nil => exact .nil
  | cons first rest =>
      cases first with
      | report receiver sender signal =>
          obtain ⟨_, coherent, _⟩ := ready
          exact (List.nodup_append.mp coherent.fresh.nodup).1
      | _ => exact (List.nodup_append.mp ready.1.fresh.nodup).1

/-- What starts behind operands that start is one of them, or started behind their task. -/
private theorem mem_started_opened
    {births : List Ticket}
    {begin : Ticket → Task}
    {owner other : Ticket}
    (begins : ∀ birth, (begin birth).started? = some birth)
    (only : ∀ next ∈ others, next = .absence owner)
    (starts : other ∈ Task.started (births.map begin ++ others ++ rest)) :
    other ∈ births ∨ other ∈ Task.started rest := by
  obtain ⟨next, member, isStarted⟩ := List.mem_filterMap.mp starts
  rcases List.mem_append.mp member with isNew | later
  · rcases List.mem_append.mp isNew with isBegin | isAbsence
    · obtain ⟨birth, isBirth, rfl⟩ := List.mem_map.mp isBegin
      cases isStarted.symm.trans (begins birth)
      exact .inl isBirth
    · cases only next isAbsence
      cases isStarted
  · exact .inr (List.mem_filterMap.mpr ⟨next, later, isStarted⟩)

/-- On a right side an operand has seats only when its owner has just started. -/
private theorem Opens.seat_of_birth
    {ticket : Ticket}
    {owner : PatternState}
    {births : List Ticket}
    {seat : Ticket × Nat}
    (table : compiled.Sound)
    (restarts : compiled.RestartsLeaves)
    (reason : task.started? = some ticket ∨ ∃ child, compiled.Repeats owner.node child)
    (opens : Opens compiled engine after ticket owner births)
    (isSeat : seat ∈ seats compiled after tasks)
    (isBirth : seat.1 ∈ births) :
    task.started? = some ticket ∧ compiled.OnRight owner.node ∧
      ∃ state, after.states.get? seat.1 = some state ∧
        compiled.IsOperand owner.node state.node ∧ compiled.Below state.node seat.2 := by
  obtain ⟨state, live, onRight, isPlace, sits⟩ := isSeat
  obtain ⟨_, same, sameLive, _, isOperand, notRight, _⟩ := opens.born seat.1 isBirth
  cases live.symm.trans sameLive
  have ownerOnRight := onRight.toOperator table isOperand notRight
  have below : compiled.Below state.node seat.2 :=
    sits.elim (fun same => same ▸ .refl) And.right
  refine ⟨reason.resolve_right ?_, ownerOnRight, state, live, isOperand, below⟩
  rintro ⟨child, repeats⟩
  cases repeats.unique isOperand
  have isLeaf := restarts ownerOnRight repeats
  rw [isLeaf.eq_of_below below] at isPlace
  rcases isPlace with ⟨_, again⟩ | ⟨_, unrepeated⟩
  · exact isLeaf.not_repeats again
  · exact unrepeated owner.node repeats

/-- The seats of operands that start were seats of their owner. -/
private theorem Opens.encard_seats_le
    {starting : List Ticket}
    {ticket : Ticket}
    {owner : PatternState}
    {births : List Ticket}
    {begin : Ticket → Task}
    (table : compiled.Sound)
    (restarts : compiled.RestartsLeaves)
    (ready : Ready law moment horizon engine starting (task :: rest))
    (reason : task.started? = some ticket ∨ ∃ child, compiled.Repeats owner.node child)
    (opens : Opens compiled engine after ticket owner births)
    (begins : ∀ birth, (begin birth).started? = some birth)
    (only : ∀ next ∈ others, next = .absence ticket) :
    (seats compiled after (births.map begin ++ others ++ rest)).encard ≤
      (seats compiled engine (task :: rest)).encard := by
  -- No seat of an operand is that of its owner.
  have clash : ∀ {seat : Ticket × Nat} {place : Nat},
      seat ∈ seats compiled after (births.map begin ++ others ++ rest) →
        (ticket, place) ∈ seats compiled after (births.map begin ++ others ++ rest) →
          seat.1 ∈ births → ticket ∉ births → seat.2 ≠ place := by
    rintro seat place isSeat ⟨state, live, _, _, sits⟩ isBirth notBirth same
    obtain ⟨starts, _, _, _, isOperand, below⟩ :=
      opens.seat_of_birth table restarts reason isSeat isBirth
    have notStarted : ticket ∉ Task.started rest := by
      have nodup := ready.nodup_started
      rw [Task.started, List.filterMap_cons_some starts] at nodup
      exact (List.nodup_cons.mp nodup).1
    have isOwn : place = state.node := sits.resolve_right fun startsAgain =>
      (mem_started_opened begins only startsAgain.1).elim notBirth notStarted
    obtain ⟨_, wasLive, sameNode, _⟩ := opens.steady.evolves.same (.inl ⟨owner, opens.live⟩) live
    cases opens.live.symm.trans wasLive
    refine isOperand.not_below table ?_
    rwa [same, isOwn, sameNode] at below
  refine encard_le_of_relates
    (fun seat old => old.2 = seat.2 ∧
      (seat.1 ∈ births ∧ old.1 = ticket ∨ seat.1 ∉ births ∧ old.1 = seat.1)) ?_ ?_
  · rintro seat isSeat
    by_cases isBirth : seat.1 ∈ births
    · obtain ⟨starts, onRight, state, live, isOperand, below⟩ :=
        opens.seat_of_birth table restarts reason isSeat isBirth
      obtain ⟨_, _, _, isPlace, _⟩ := isSeat
      refine ⟨(ticket, seat.2), ⟨owner, opens.live, onRight, isPlace, .inr ⟨?_, ?_⟩⟩, rfl,
        .inl ⟨isBirth, rfl⟩⟩
      · exact List.mem_filterMap.mpr ⟨task, List.mem_cons_self, starts⟩
      · exact isOperand.below.trans below
    · obtain ⟨state, live, onRight, isPlace, sits⟩ := isSeat
      have issued := (opens.known live).resolve_right isBirth
      obtain ⟨before, wasLive, sameNode, _⟩ := opens.steady.evolves.same issued live
      rw [sameNode] at onRight sits
      refine ⟨seat, ⟨before, wasLive, onRight, isPlace, sits.imp_right (And.imp_left ?_)⟩, rfl,
        .inr ⟨isBirth, rfl⟩⟩
      exact fun starts =>
        mem_started_cons ((mem_started_opened begins only starts).resolve_left isBirth)
  · rintro first isFirst second isSecond old ⟨firstPlace, fromFirst⟩ ⟨secondPlace, fromSecond⟩
    have samePlace : first.2 = second.2 := firstPlace.symm.trans secondPlace
    rcases fromFirst with ⟨firstBirth, isOwner⟩ | ⟨notBirth, sameFirst⟩
    · rcases fromSecond with ⟨secondBirth, _⟩ | ⟨notBirth, sameSecond⟩
      · obtain ⟨_, _, state, live, isOperand, below⟩ :=
          opens.seat_of_birth table restarts reason isFirst firstBirth
        obtain ⟨_, _, other, otherLive, isOther, belowOther⟩ :=
          opens.seat_of_birth table restarts reason isSecond secondBirth
        refine Prod.ext (opens.apart firstBirth secondBirth live otherLive ?_) samePlace
        by_contra different
        exact IsOperand.apart table isOperand isOther different below (samePlace ▸ belowOther)
      · have isTicket := isOwner.symm.trans sameSecond
        exact absurd samePlace
          (clash isFirst (isTicket ▸ isSecond) firstBirth (isTicket ▸ notBirth))
    · rcases fromSecond with ⟨secondBirth, isOwner⟩ | ⟨_, sameSecond⟩
      · have isTicket := isOwner.symm.trans sameFirst
        exact absurd samePlace.symm
          (clash isSecond (isTicket ▸ isFirst) secondBirth (isTicket ▸ notBirth))
      · exact Prod.ext (sameFirst.symm.trans sameSecond) samePlace

/-- Performing a task keeps the number of seats within its bound. -/
theorem Seated.perform
    (table : compiled.Sound)
    (restarts : compiled.RestartsLeaves)
    (ready : Ready law moment horizon engine [] (task :: rest))
    (orderly : Orderly compiled engine (task :: rest))
    (startsOver : StartsOver compiled engine (task :: rest))
    (seated : Seated compiled engine (task :: rest)) :
    Seated compiled (engine.perform task).1 ((engine.perform task).2 ++ rest) := by
  have sameLimit : (engine.perform task).1.limit = engine.limit :=
    (SameTerms.perform engine task).limit
  rw [Seated, sameLimit]
  have outcome := outcome_perform table ready
  generalize engine.perform task = answer at outcome
  cases outcome with
  | concluded sameStates =>
      refine (Set.encard_le_encard (seats_subset (fun live => ?_) fun _ starts => ?_)).trans seated
      · exact ⟨_, sameStates ▸ live, rfl⟩
      · exact mem_started_cons starts
  | rested _ barren _ replies _ =>
      refine (Set.encard_le_encard (barren.seats_subset fun next member => ?_)).trans seated
      obtain ⟨_, _, _, rfl, _⟩ := replies next member
      rfl
  | heard _ _ barren _ replies _ =>
      refine (Set.encard_le_encard (barren.seats_subset fun next member => ?_)).trans seated
      rcases replies next member with ⟨_, rfl⟩ | restarted
      · rfl
      · cases restarted <;> rfl
  | @continued receiver sender birth signal owner state left right rights after live atNode shape
      few steady notIssued birthLive isRight _ _ known =>
      have admitted := orderly.encard_seats_add_le table restarts ready startsOver live atNode shape
      have subset : seats compiled after (.activate birth :: rest) ⊆
          seats compiled engine (.report (some receiver) sender signal :: rest) ∪
            Prod.mk birth '' (compiled.placesBelow state.node) :=
        seats_subset_of_continued steady birthLive known notIssued
      rw [isRight] at subset
      have more := (Set.encard_le_encard subset).trans (Set.encard_union_le _ _)
      refine (more.trans (add_le_add_right (Set.encard_image_le _ _) _)).trans (admitted.trans ?_)
      exact add_le_add_left (Nat.cast_le.mpr few.le) _
  | opened _ _ reason opens begins only =>
      exact (opens.encard_seats_le table restarts ready reason begins only).trans seated

end Perform

end Engine

end EventQuery
