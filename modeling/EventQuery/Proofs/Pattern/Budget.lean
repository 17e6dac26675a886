import EventQuery.Proofs.Pattern.Performing
import EventQuery.Proofs.Pattern.Pricing
import Mathlib.Algebra.Order.BigOperators.Group.List
import Mathlib.Algebra.Order.Group.Nat
import Mathlib.Algebra.Ring.Nat

namespace EventQuery

namespace Engine

/-!
# The budget of an agenda

With fair prices every task on the agenda has a cost, and performing one costs more than the tasks
that come next.  Only an operand that is started again and may report while it starts is not paid
for: performing that task is a spin.
-/

section Costs

/-- What the node of a live state pays for a part of its work. -/
def fee
    (prices : Nat → Price)
    (engine : Engine)
    (part : Price → Nat)
    (ticket : Ticket) : Nat :=
  match engine.states.get? ticket with
  | none => 0
  | some state => part (prices state.node)

/-- What the tasks cost that come after a report to a state. -/
def hearing
    (prices : Nat → Price)
    (engine : Engine)
    (receiver sender : Ticket) : Nat :=
  match engine.states.get? receiver with
  | none => 0
  | some state =>
      match engine.nodeOf state, state.progress with
      | some (.sequence _ right), .sequence left _ =>
          if left = some sender then max (prices state.node).report (prices right).start + 1
          else (prices state.node).report + 1
      | some (.every _), _ => (prices state.node).report + (prices state.node).again + 2
      | some (.repetition _ _ _ _), _ => (prices state.node).report + (prices state.node).again + 2
      | _, _ => (prices state.node).report + 1

/-- What a task costs: one, and what the tasks cost that come after it. -/
def cost (prices : Nat → Price) (engine : Engine) : Task → Nat
  | .activate ticket => engine.fee prices Price.start ticket + 1
  | .operand _ ticket => engine.fee prices Price.start ticket + 1
  | .absence ticket => engine.fee prices (fun price => price.report + 1) ticket + 1
  | .report none _ _ => 1
  | .report (some receiver) sender _ => engine.hearing prices receiver sender + 1
  | .rearm ticket => engine.fee prices Price.again ticket + 1
  | .iterate ticket => engine.fee prices Price.again ticket + 1
  | .offer ticket _ => engine.fee prices (fun price => price.report + 1) ticket + 1
  | .expire ticket => engine.fee prices (fun price => price.report + 1) ticket + 1

/-- What several tasks cost. -/
def budget (prices : Nat → Price) (engine : Engine) (tasks : List Task) : Nat :=
  (tasks.map (engine.cost prices)).sum

variable {prices : Nat → Price} {engine : Engine} {ticket : Ticket} {state : PatternState}

theorem cost_iterate
    (prices : Nat → Price)
    (engine : Engine)
    (ticket : Ticket) :
    engine.cost prices (.iterate ticket) = engine.fee prices Price.again ticket + 1 :=
  rfl

@[simp] theorem budget_nil
    (prices : Nat → Price)
    (engine : Engine) :
    engine.budget prices [] = 0 :=
  rfl

@[simp] theorem budget_cons
    (prices : Nat → Price)
    (engine : Engine)
    (task : Task)
    (rest : List Task) :
    engine.budget prices (task :: rest) = engine.cost prices task + engine.budget prices rest :=
  rfl

@[simp] theorem budget_append
    (prices : Nat → Price)
    (engine : Engine)
    (tasks rest : List Task) :
    engine.budget prices (tasks ++ rest) =
      engine.budget prices tasks + engine.budget prices rest := by
  simp [budget]

theorem fee_of_live
    (prices : Nat → Price)
    (live : engine.states.get? ticket = some state)
    (part : Price → Nat) :
    engine.fee prices part ticket = part (prices state.node) := by
  simp only [fee, live]

end Costs

section Steady

/--
One engine comes from another by work on one state: what is found of all states handed out before is
as it was, and may only be gone.
-/
structure Steady (before after : Engine) (worked : Ticket) : Prop where
  evolves : Evolves before after
  sound : after.states.Sound
  pattern : after.pattern = before.pattern
  others :
    ∀ {ticket : Ticket} {state : PatternState},
      before.states.Issued ticket → ticket ≠ worked → after.states.get? ticket = some state →
        before.states.get? ticket = some state

namespace Steady

variable {before engine : Engine} {worked : Ticket}

theorem refl
    (sound : engine.states.Sound)
    (worked : Ticket) :
    Steady engine engine worked :=
  ⟨.refl engine, sound, rfl, fun _ _ live => live⟩

theorem withStates
    {after : Engine}
    (steady : Steady before engine worked)
    (sameStates : after.states = engine.states)
    (samePattern : after.pattern = engine.pattern) :
    Steady before after worked where
  evolves := steady.evolves.trans (.of_states_eq sameStates)
  sound := sameStates ▸ steady.sound
  pattern := samePattern.trans steady.pattern
  others := fun issued other live => steady.others issued other (sameStates ▸ live)

theorem update
    (steady : Steady before engine worked)
    (change : Progress → Progress) :
    Steady before (engine.update worked change) worked where
  evolves := steady.evolves.trans (evolves_update engine worked change)
  sound := steady.sound.modify _ _
  pattern := steady.pattern
  others := by
    intro ticket state issued other live
    rw [get?_update, if_neg other] at live
    exact steady.others issued other live

theorem create
    (steady : Steady before engine worked)
    (number : Nat)
    (parent : Option Ticket)
    (bindings : Row) :
    Steady before (engine.create number parent bindings).1 worked where
  evolves := steady.evolves.trans (evolves_create steady.sound number parent bindings)
  sound := steady.sound.insert _
  pattern := steady.pattern
  others := by
    intro ticket state issued other live
    rw [get?_create steady.sound,
      if_neg (ne_create steady.sound _ _ _ (steady.evolves.issued issued))] at live
    exact steady.others issued other live

/-- States may be dropped together with everything below them. -/
theorem release
    (steady : Steady before engine worked)
    (tickets : List Ticket) :
    Steady before (engine.release tickets) worked := by
  fun_induction Engine.release engine tickets with
  | case1 engine => exact steady
  | case2 engine ticket rest taken inductionHypothesis => exact inductionHypothesis steady
  | case3 engine ticket rest state states taken fewer inductionHypothesis =>
      refine inductionHypothesis
        { evolves := steady.evolves.trans (evolves_drop taken)
          sound := steady.sound.take taken
          pattern := ?_
          others := ?_ }
      · rw [← steady.pattern]
        unfold unlist
        split <;> rfl
      · intro other found issued apart live
        exact steady.others issued apart ((get?_drop_iff taken).mp live).2

end Steady

end Steady

section Waiting

variable {prices : Nat → Price} {before after : Engine}

theorem fee_le_of_evolves
    (prices : Nat → Price)
    (evolves : Evolves before after)
    {ticket : Ticket}
    (issued : before.states.Issued ticket)
    (part : Price → Nat) :
    after.fee prices part ticket ≤ before.fee prices part ticket := by
  cases live : after.states.get? ticket with
  | none => simp only [fee, live, Nat.zero_le]
  | some state =>
      obtain ⟨earlier, earlierLive, sameNode, _⟩ := evolves.same issued live
      rw [fee_of_live prices live, fee_of_live prices earlierLive, sameNode]

theorem cost_le_of_evolves
    {compiled : CompiledPattern}
    {law : RowLaw compiled}
    {moment horizon : Nat}
    {starting : List Ticket}
    (evolves : Evolves before after)
    {task : Task}
    (apt : Apt law moment horizon before starting task)
    (issued : ∀ ticket ∈ task.started?, before.states.Issued ticket) :
    after.cost prices task ≤ before.cost prices task := by
  cases task with
  | activate ticket =>
      exact Nat.succ_le_succ (fee_le_of_evolves prices evolves (issued ticket rfl) _)
  | operand owner ticket =>
      exact Nat.succ_le_succ (fee_le_of_evolves prices evolves (issued ticket rfl) _)
  | report _ _ _ => exact apt.elim
  | absence ticket | rearm ticket | iterate ticket | offer ticket event =>
      exact Nat.succ_le_succ (fee_le_of_evolves prices evolves apt.1 _)
  | expire ticket =>
      exact Nat.succ_le_succ (fee_le_of_evolves prices evolves apt _)

/-- Tasks that wait for their turn cost no more later. -/
theorem budget_le_of_evolves
    {compiled : CompiledPattern}
    {law : RowLaw compiled}
    {moment horizon : Nat}
    {starting : List Ticket}
    (evolves : Evolves before after)
    {tasks : List Task}
    (apt : ∀ task ∈ tasks, Apt law moment horizon before starting task)
    (issued : ∀ ticket ∈ Task.started tasks, before.states.Issued ticket) :
    after.budget prices tasks ≤ before.budget prices tasks := by
  refine List.sum_le_sum fun task member => ?_
  refine cost_le_of_evolves evolves (apt task member) fun ticket isStarted => ?_
  exact issued ticket (List.mem_filterMap.mpr ⟨task, member, isStarted⟩)

end Waiting

section Reporting

variable {compiled : CompiledPattern} {law : RowLaw compiled} {moment horizon : Nat}
  {prices : Nat → Price} {before engine : Engine} {starting : List Ticket}
  {gap : Option (Ticket × PatternState)} {ticket : Ticket} {state : PatternState}

/-- The node of a state pays for its reports. -/
theorem cost_report
    (fair : compiled.AllFair prices)
    (coherent : before.Coherent law moment horizon starting gap [])
    (live : before.states.get? ticket = some state)
    (steady : Steady before engine ticket)
    (signal : Signal) :
    engine.cost prices (.report state.parent ticket signal) ≤
      (prices state.node).report + 1 := by
  cases hasParent : state.parent with
  | none => exact Nat.succ_le_succ (Nat.zero_le _)
  | some parent =>
      obtain ⟨owner, node, ownerLive, atNode, adopts, order⟩ :=
        coherent.linked.adopted (.inl live) (by simp) hasParent
      have apart : parent ≠ ticket := by
        rintro rfl
        cases live.symm.trans ownerLive
        exact Nat.lt_irrefl _ order
      refine Nat.succ_le_succ ?_
      cases found : engine.states.get? parent with
      | none => simp only [hearing, found, Nat.zero_le]
      | some same =>
          cases ownerLive.symm.trans
            (steady.others (.inl ⟨owner, ownerLive⟩) apart found)
          have atEngine : engine.nodeOf owner = some node := by
            rw [nodeOf, steady.pattern, coherent.kept.pattern, atNode]
          have fairHere := fair owner.node node atNode
          have distinct := coherent.kept.childrenNodup ownerLive
          rcases owner with ⟨number, grandparent, created, bindings, progress⟩
          generalize state.node = child, state.bindings = row at adopts
          simp only at adopts fairHere distinct
          simp only [hearing, found, atEngine]
          cases adopts with
          | left =>
              obtain ⟨_, _, reports, starts⟩ := fairHere
              simp only [↓reduceIte]
              omega
          | @right _ _ running _ _ _ member _ =>
              have notLeft : running ≠ some ticket := by
                intro isLeft
                exact (List.nodup_append.mp distinct).2.2 ticket (by simp [isLeft]) ticket
                  member rfl
              simp only [if_neg notLeft]
              exact fairHere.2.1
          | alternation _ member => exact fairHere.2 _ member
          | conjunction atPlace _ _ => exact fairHere.2 _ (List.mem_of_getElem? atPlace)
          | every | repetition _ _ => exact fairHere.2.1
          | negation | within | guarded => exact fairHere.2

end Reporting

section Starting

variable {prices : Nat → Price} {engine : Engine}

/-- What the tasks cost that come next after a task. -/
def owed (prices : Nat → Price) (answer : Engine × List Task) : Nat :=
  answer.1.budget prices answer.2

theorem fee_update
    (prices : Nat → Price)
    (engine : Engine)
    (changed : Ticket)
    (change : Progress → Progress)
    (part : Price → Nat)
    (ticket : Ticket) :
    (engine.update changed change).fee prices part ticket = engine.fee prices part ticket := by
  simp only [fee, get?_update]
  by_cases same : ticket = changed
  · rw [if_pos same]
    cases engine.states.get? ticket <;> rfl
  · rw [if_neg same]

theorem fee_create
    (sound : engine.states.Sound)
    (number : Nat)
    (parent : Option Ticket)
    (bindings : Row)
    (part : Price → Nat) :
    (engine.create number parent bindings).1.fee prices part
        (engine.create number parent bindings).2 =
      part (prices number) :=
  fee_of_live prices (get?_create_self sound number parent bindings) part

/-- The only operand costs its start. -/
theorem owed_startChild
    (prices : Nat → Price)
    (sound : engine.states.Sound)
    (owner : Ticket)
    (child : Nat)
    (bindings : Row) :
    owed prices (engine.startChild owner child bindings) = (prices child).start + 1 := by
  simp only [owed, startChild, budget_cons, budget_nil, cost, fee_update,
    fee_create sound, Nat.add_zero]

theorem get?_createAll_of_live
    (sound : engine.states.Sound)
    (owner : Ticket)
    (bindings : Row)
    (numbers : List Nat)
    {ticket : Ticket}
    {state : PatternState}
    (live : engine.states.get? ticket = some state) :
    (engine.createAll owner bindings numbers).1.states.get? ticket = some state := by
  induction numbers generalizing engine with
  | nil => exact live
  | cons number rest inductionHypothesis =>
      exact inductionHypothesis (sound.insert _)
        (get?_create_of_live sound number (some owner) bindings live)

theorem budget_createAll
    (sound : engine.states.Sound)
    (owner : Ticket)
    (bindings : Row)
    (numbers : List Nat) :
    (engine.createAll owner bindings numbers).1.budget prices
        ((engine.createAll owner bindings numbers).2.map (Task.operand owner)) =
      (numbers.map fun number => (prices number).start + 1).sum := by
  induction numbers generalizing engine with
  | nil => rfl
  | cons number rest inductionHypothesis =>
      have soundNow : (engine.create number (some owner) bindings).1.states.Sound :=
        sound.insert _
      have first := get?_createAll_of_live soundNow owner bindings rest
        (get?_create_self sound number (some owner) bindings)
      have others := inductionHypothesis soundNow
      rw [List.map_cons, List.sum_cons, ← others]
      exact congrArg (fun fee => fee + 1 + _) (fee_of_live prices first Price.start)

/-- All operands together cost their starts. -/
theorem owed_startOperands
    (sound : engine.states.Sound)
    (owner : Ticket)
    (operands : List Nat)
    (bindings : Row) :
    owed prices (engine.startOperands owner operands bindings) =
      (operands.map fun number => (prices number).start + 1).sum := by
  rw [← budget_createAll sound owner bindings operands]
  simp only [owed, startOperands, budget, List.map_map]
  congr 1
  refine List.map_congr_left fun ticket _ => ?_
  simp only [Function.comp_apply, cost, fee_update]

end Starting

section Receiving

variable {compiled : CompiledPattern} {law : RowLaw compiled} {moment horizon : Nat}
  {prices : Nat → Price} {before engine : Engine} {starting : List Ticket}
  {gap : Option (Ticket × PatternState)} {ticket sender : Ticket} {state : PatternState}
  {signal : Signal}

/-- A state that finishes costs a report. -/
theorem owed_finish
    (fair : compiled.AllFair prices)
    (coherent : before.Coherent law moment horizon starting gap [])
    (live : before.states.get? ticket = some state)
    (steady : Steady before engine ticket)
    (signal : Signal) :
    owed prices (engine.finish ticket signal) ≤ (prices state.node).report + 1 := by
  unfold finish
  split
  next => exact Nat.zero_le _
  next found stillLive =>
      obtain ⟨earlier, earlierLive, _, sameParent, _⟩ :=
        steady.evolves.same (.inl ⟨state, live⟩) stillLive
      cases live.symm.trans earlierLive
      rw [owed, budget_cons, budget_nil, Nat.add_zero, sameParent]
      exact cost_report fair coherent live (steady.release [ticket]) signal

/-- A sequence in which nothing runs any more costs a report. -/
theorem owed_failIfExhausted
    (fair : compiled.AllFair prices)
    (coherent : before.Coherent law moment horizon starting gap [])
    (live : before.states.get? ticket = some state)
    (steady : Steady before engine ticket)
    (restartable : Bool) :
    owed prices (engine.failIfExhausted ticket restartable) ≤ (prices state.node).report + 1 := by
  unfold failIfExhausted
  split
  next => exact owed_finish fair coherent live steady _
  next => exact Nat.zero_le _

theorem cost_reportMatch
    (fair : compiled.AllFair prices)
    (coherent : before.Coherent law moment horizon starting gap [])
    (live : before.states.get? ticket = some state)
    (steady : Steady before engine ticket)
    (bindings : Row) :
    engine.cost prices (reportMatch state ticket bindings) ≤ (prices state.node).report + 1 :=
  cost_report fair coherent live steady _

theorem fee_again_le
    (prices : Nat → Price)
    (live : before.states.get? ticket = some state)
    (steady : Steady before engine ticket) :
    engine.fee prices Price.again ticket ≤ (prices state.node).again := by
  rw [← fee_of_live prices live Price.again]
  exact fee_le_of_evolves prices steady.evolves (.inl ⟨state, live⟩) _

/-- A state that may drop its operand stays where it is. -/
private theorem Steady.dropChildIf
    (steady : Steady before engine ticket)
    (isGone : Bool) :
    Steady before (engine.dropChildIf ticket isGone) ticket := by
  unfold Engine.dropChildIf
  split
  · exact steady.update _
  · exact steady

private theorem owed_receiveEvery
    (fair : compiled.AllFair prices)
    (coherent : engine.Coherent law moment horizon starting gap [])
    (live : engine.states.get? ticket = some state)
    (signal : Signal) :
    owed prices (engine.receiveEvery ticket state signal) ≤
      (prices state.node).report + (prices state.node).again + 2 := by
  have steady := Steady.refl coherent.kept.sound ticket
  cases signal with
  | matched bindings isLast =>
      have dropped := steady.dropChildIf isLast
      have told := cost_reportMatch fair coherent live dropped bindings
      have again := fee_again_le prices live dropped
      simp only [owed, receiveEvery, budget_cons]
      split
      · rw [budget_cons, budget_nil, cost]
        omega
      · rw [budget_nil]
        omega
  | failed restartable =>
      have dropped := steady.update Progress.withoutChild
      have again := fee_again_le prices live dropped
      have finished := owed_finish fair coherent live dropped (.failed false)
      simp only [receiveEvery]
      split
      · simp only [owed, budget_cons, budget_nil, cost]
        omega
      · omega

private theorem owed_receiveLeft
    (fair : compiled.AllFair prices)
    (coherent : engine.Coherent law moment horizon starting gap [])
    (live : engine.states.get? ticket = some state)
    (right : Nat)
    (signal : Signal) :
    owed prices (engine.receiveLeft ticket right signal) ≤
      max (prices state.node).report (prices right).start + 1 := by
  have steady := Steady.refl coherent.kept.sound ticket
  cases signal with
  | matched bindings isLast =>
      have dropped := steady.dropChildIf isLast
      simp only [receiveLeft]
      split
      · have exhausted := owed_failIfExhausted fair coherent live dropped true
        omega
      · simp only [owed, budget_cons, budget_nil, cost, fee_update, fee_create dropped.sound]
        omega
  | failed restartable =>
      have exhausted := owed_failIfExhausted fair coherent live
        (steady.update Progress.withoutChild) restartable
      simp only [receiveLeft]
      omega

private theorem owed_receiveRight
    (fair : compiled.AllFair prices)
    (coherent : engine.Coherent law moment horizon starting gap [])
    (live : engine.states.get? ticket = some state)
    (sender : Ticket)
    (signal : Signal) :
    owed prices (engine.receiveRight ticket state sender signal) ≤
      (prices state.node).report + 1 := by
  have steady := Steady.refl coherent.kept.sound ticket
  cases signal with
  | matched bindings isLast =>
      simp only [receiveRight]
      split
      · exact owed_finish fair coherent live (steady.update _) _
      · rw [owed, budget_cons, budget_nil, Nat.add_zero]
        exact cost_reportMatch fair coherent live (steady.update _) bindings
  | failed restartable =>
      exact owed_failIfExhausted fair coherent live (steady.update _) restartable

private theorem owed_receiveAlternation
    (fair : compiled.AllFair prices)
    (coherent : engine.Coherent law moment horizon starting gap [])
    (live : engine.states.get? ticket = some state)
    (children : List Ticket)
    (sender : Ticket)
    (signal : Signal) :
    owed prices (engine.receiveAlternation ticket state children sender signal) ≤
      (prices state.node).report + 1 := by
  have steady := Steady.refl coherent.kept.sound ticket
  rcases signal with ⟨bindings, isLast⟩ | ⟨restartable⟩
  · cases isLast with
    | true => exact owed_finish fair coherent live steady _
    | false =>
        rw [receiveAlternation, owed, budget_cons, budget_nil, Nat.add_zero]
        exact cost_reportMatch fair coherent live steady bindings
  · simp only [receiveAlternation]
    split
    · exact owed_finish fair coherent live (steady.update _) _
    · exact Nat.zero_le _

private theorem owed_receiveConjunction
    (fair : compiled.AllFair prices)
    (coherent : engine.Coherent law moment horizon starting gap [])
    (live : engine.states.get? ticket = some state)
    (operands : List Conjunct)
    (sender : Ticket)
    (signal : Signal) :
    owed prices (engine.receiveConjunction ticket state operands sender signal) ≤
      (prices state.node).report + 1 := by
  have steady := Steady.refl coherent.kept.sound ticket
  cases signal with
  | matched bindings isLast =>
      simp only [receiveConjunction]
      split
      · exact owed_finish fair coherent live (steady.update _) _
      · exact Nat.zero_le _
  | failed restartable => exact owed_finish fair coherent live steady _

private theorem owed_receiveRepetition
    (fair : compiled.AllFair prices)
    (coherent : engine.Coherent law moment horizon starting gap [])
    (live : engine.states.get? ticket = some state)
    (least : Nat)
    (most : Option Nat)
    (innerSlots : List Nat)
    (child : Option Ticket)
    (rounds : Nat)
    (collected : Row)
    (signal : Signal) :
    owed prices
        (engine.receiveRepetition ticket state least most innerSlots child rounds collected
          signal) ≤
      (prices state.node).report + (prices state.node).again + 2 := by
  have steady := Steady.refl coherent.kept.sound ticket
  cases signal with
  | matched bindings isLast =>
      simp only [receiveRepetition]
      generalize collect collected bindings innerSlots = total
      generalize (fun _ => Progress.repetition (if isLast then none else child) (rounds + 1)
        total) = change
      have counted := steady.update change
      have again := fee_again_le prices live counted
      have told := cost_reportMatch fair coherent live counted total
      have finished := owed_finish fair coherent live counted (.matched total true)
      split
      · omega
      · split
        · simp only [owed, budget_cons, budget_nil, cost_iterate]
          omega
        · simp only [owed, budget_cons, budget_nil, cost_iterate]
          omega
  | failed restartable =>
      have finished := owed_finish fair coherent live steady (.failed restartable)
      exact Nat.le_trans finished (by omega)

private theorem owed_receiveNegation
    (fair : compiled.AllFair prices)
    (coherent : engine.Coherent law moment horizon starting gap [])
    (live : engine.states.get? ticket = some state)
    (signal : Signal) :
    owed prices (engine.receiveNegation ticket signal) ≤ (prices state.node).report + 1 := by
  have steady := Steady.refl coherent.kept.sound ticket
  cases signal with
  | matched _ _ => exact owed_finish fair coherent live steady _
  | failed _ => exact Nat.zero_le _

private theorem owed_receiveWithin
    (fair : compiled.AllFair prices)
    (coherent : engine.Coherent law moment horizon starting gap [])
    (live : engine.states.get? ticket = some state)
    (absence : Bool)
    (child : Option Ticket)
    (deadline : Int)
    (signal : Signal) :
    owed prices (engine.receiveWithin ticket state absence child deadline signal) ≤
      (prices state.node).report + 1 := by
  have steady := Steady.refl coherent.kept.sound ticket
  cases signal with
  | matched bindings isLast =>
      simp only [receiveWithin]
      split
      · exact Nat.zero_le _
      · split
        · exact owed_finish fair coherent live steady _
        · rw [owed, budget_cons, budget_nil, Nat.add_zero]
          exact cost_reportMatch fair coherent live steady bindings
  | failed restartable => exact owed_finish fair coherent live steady _

private theorem owed_receiveGuarded
    (fair : compiled.AllFair prices)
    (coherent : engine.Coherent law moment horizon starting gap [])
    (live : engine.states.get? ticket = some state)
    (guard : Node)
    (signal : Signal) :
    owed prices (engine.receiveGuarded ticket state guard signal) ≤
      (prices state.node).report + 1 := by
  have steady := Steady.refl coherent.kept.sound ticket
  cases signal with
  | matched bindings isLast =>
      obtain ⟨faults, tested⟩ := test_frame engine guard bindings
      have unchanged : Steady engine (engine.test guard bindings).1 ticket := by
        rw [tested]
        exact steady.withStates rfl rfl
      simp only [receiveGuarded]
      split
      · exact owed_finish fair coherent live unchanged _
      · split
        · exact owed_finish fair coherent live unchanged _
        · rw [owed, budget_cons, budget_nil, Nat.add_zero]
          exact cost_reportMatch fair coherent live unchanged bindings
  | failed restartable => exact owed_finish fair coherent live steady _

/-- What a state does about a signal is paid for. -/
theorem owed_receive
    (fair : compiled.AllFair prices)
    (coherent : engine.Coherent law moment horizon starting gap [])
    (receiver sender : Ticket)
    (signal : Signal) :
    owed prices (engine.receive receiver sender signal) ≤
      engine.hearing prices receiver sender := by
  cases live : engine.states.get? receiver with
  | none =>
      simp only [receive, hearing, live]
      exact Nat.zero_le _
  | some state =>
      simp only [receive, hearing, live]
      split
      next atNode =>
          simp only [atNode]
          exact owed_receiveEvery fair coherent live signal
      next atNode isProgress =>
          simp only [atNode, isProgress]
          split
          · exact owed_receiveLeft fair coherent live _ signal
          · exact owed_receiveRight fair coherent live sender signal
      next atNode isProgress =>
          simp only [atNode]
          exact owed_receiveAlternation fair coherent live _ sender signal
      next atNode isProgress =>
          simp only [atNode]
          exact owed_receiveConjunction fair coherent live _ sender signal
      next atNode isProgress =>
          simp only [atNode]
          exact owed_receiveRepetition fair coherent live _ _ _ _ _ _ signal
      next atNode =>
          simp only [atNode]
          exact owed_receiveNegation fair coherent live signal
      next atNode isProgress =>
          simp only [atNode]
          exact owed_receiveWithin fair coherent live _ _ _ signal
      next atNode =>
          simp only [atNode]
          exact owed_receiveGuarded fair coherent live _ signal
      next => exact Nat.zero_le _

end Receiving

section Performing

variable {compiled : CompiledPattern} {law : RowLaw compiled} {moment horizon : Nat}
  {prices : Nat → Price} {engine : Engine} {starting : List Ticket} {ticket : Ticket}
  {state : PatternState}

private theorem owed_activate
    (fair : compiled.AllFair prices)
    (coherent : engine.Coherent law moment horizon starting none [])
    (ticket : Ticket) :
    owed prices (engine.activate ticket) ≤ engine.fee prices Price.start ticket := by
  have sound := coherent.kept.sound
  cases live : engine.states.get? ticket with
  | none =>
      simp only [activate, live]
      exact Nat.zero_le _
  | some state =>
      have fairHere : ∀ {node : PatternNode}, engine.nodeOf state = some node →
          compiled.Fair prices state.node node := by
        intro node atNode
        rw [nodeOf, coherent.kept.pattern] at atNode
        exact fair state.node node atNode
      simp only [activate, live, fee_of_live prices live]
      split
      next => exact Nat.zero_le _
      next => exact Nat.zero_le _
      next atNode =>
          rw [owed_startChild prices sound]
          exact (fairHere atNode).1
      next atNode =>
          rw [owed_startChild prices sound]
          exact (fairHere atNode).1
      next atNode =>
          rw [owed_startOperands sound]
          exact (fairHere atNode).1
      next atNode =>
          rw [owed_startOperands sound]
          exact (fairHere atNode).1
      next atNode _ =>
          rw [owed_startChild prices sound]
          exact (fairHere atNode).1
      next child atNode =>
          have started := owed_startChild prices sound ticket child state.bindings
          have steady := ((Steady.refl sound ticket).create child (some ticket)
            state.bindings).update (Progress.withChild (engine.create child (some ticket)
              state.bindings).2)
          have absence := fee_le_of_evolves prices steady.evolves
            (.inl ⟨state, live⟩) (fun price => price.report + 1)
          rw [fee_of_live prices live] at absence
          have paid := (fairHere atNode).1
          change owed prices _ ≤ _
          rw [owed, budget_append, budget_cons, budget_nil]
          change owed prices (engine.startChild ticket child state.bindings) + (fee prices
            ((engine.create child (some ticket) state.bindings).1.update ticket
              (Progress.withChild (engine.create child (some ticket) state.bindings).2))
            (fun price => price.report + 1) ticket + 1 + 0) ≤ _
          omega
      next atNode _ =>
          rw [owed_startChild prices (by exact sound)]
          exact (fairHere atNode).1
      next atNode =>
          rw [owed_startChild prices sound]
          exact (fairHere atNode).1
      next => exact Nat.zero_le _

private theorem owed_restart
    (fair : compiled.AllFair prices)
    (coherent : engine.Coherent law moment horizon starting none [])
    (live : engine.states.get? ticket = some state)
    {node : PatternNode}
    {child : Nat}
    (atNode : engine.nodeOf state = some node)
    (repeats : node.repeated = some child)
    (silent : compiled.Silent child)
    (bindings : Row) :
    owed prices (engine.startChild ticket child bindings) ≤
      engine.fee prices Price.again ticket := by
  rw [nodeOf, coherent.kept.pattern] at atNode
  have fairHere := fair state.node node atNode
  rw [owed_startChild prices coherent.kept.sound, fee_of_live prices live]
  cases node <;> cases repeats
  case every => exact fairHere.2.2 silent
  case repetition => exact fairHere.2.2 silent

private theorem owed_offer
    (fair : compiled.AllFair prices)
    (coherent : engine.Coherent law moment horizon starting none [])
    (ticket : Ticket)
    (event : Event) :
    owed prices (engine.offer ticket event) ≤
      engine.fee prices (fun price => price.report + 1) ticket := by
  have steady := Steady.refl coherent.kept.sound ticket
  cases live : engine.states.get? ticket with
  | none =>
      simp only [offer, live]
      exact Nat.zero_le _
  | some state =>
      simp only [offer, live, fee_of_live prices live]
      split
      next slot predicate _ =>
          cases predicate with
          | none => exact owed_finish fair coherent live steady _
          | some condition =>
              obtain ⟨faults, tested⟩ :=
                test_frame engine condition (state.bindings ++ [Value.event event])
              have unchanged : Steady engine
                  (engine.test condition (state.bindings ++ [Value.event event])).1 ticket := by
                rw [tested]
                exact steady.withStates rfl rfl
              simp only
              split
              · exact owed_finish fair coherent live unchanged _
              · exact Nat.zero_le _
      next => exact Nat.zero_le _

private theorem owed_expire
    (fair : compiled.AllFair prices)
    (coherent : engine.Coherent law moment horizon starting none [])
    (ticket : Ticket) :
    owed prices (engine.expire ticket) ≤
      engine.fee prices (fun price => price.report + 1) ticket := by
  have steady := Steady.refl coherent.kept.sound ticket
  cases live : engine.states.get? ticket with
  | none =>
      simp only [expire, live]
      exact Nat.zero_le _
  | some state =>
      simp only [expire, live, fee_of_live prices live]
      split
      next => exact owed_finish fair coherent live steady _
      next => exact owed_finish fair coherent live steady _
      next => exact owed_finish fair coherent live steady _
      next => exact Nat.zero_le _

/-- A task starts the operand of a live state again. -/
def Restarts (engine : Engine) (task : Task) (child : Nat) : Prop :=
  ∃ ticket state,
    (task = .rearm ticket ∨ task = .iterate ticket) ∧
      engine.states.get? ticket = some state ∧ state.progress.children = [] ∧
        (engine.nodeOf state).bind PatternNode.repeated = some child

/-- Performing a task costs one more than the tasks that come next. -/
theorem owed_perform
    (fair : compiled.AllFair prices)
    {task : Task}
    {rest : List Task}
    (ready : Ready law moment horizon engine starting (task :: rest))
    (silent : ∀ child, engine.Restarts task child → compiled.Silent child) :
    owed prices (engine.perform task) + 1 ≤ engine.cost prices task := by
  cases task with
  | activate ticket => exact Nat.succ_le_succ (owed_activate fair ready.1 ticket)
  | operand owner ticket =>
      simp only [perform]
      split
      · exact Nat.succ_le_succ (owed_activate fair ready.1 ticket)
      · exact Nat.succ_le_succ (Nat.zero_le _)
  | absence ticket =>
      refine Nat.succ_le_succ ?_
      cases live : engine.states.get? ticket with
      | none =>
          simp only [perform, live]
          exact Nat.zero_le _
      | some state =>
          simp only [perform, live, fee_of_live prices live, owed, budget_cons, budget_nil,
            Nat.add_zero]
          exact cost_reportMatch fair ready.1 live (.refl ready.1.kept.sound ticket) state.bindings
  | report receiver sender signal =>
      obtain ⟨gap, coherent, _, _⟩ := ready
      cases receiver with
      | none => exact Nat.le_refl _
      | some receiver => exact Nat.succ_le_succ (owed_receive fair coherent receiver sender signal)
  | rearm ticket =>
      refine Nat.succ_le_succ ?_
      cases live : engine.states.get? ticket with
      | none =>
          simp only [perform, rearm, live]
          exact Nat.zero_le _
      | some state =>
          simp only [perform, rearm, live]
          split
          next child atNode isProgress =>
              refine owed_restart fair ready.1 live atNode rfl (silent child ?_) state.bindings
              exact ⟨ticket, state, .inl rfl, live, by rw [isProgress]; rfl, by rw [atNode]; rfl⟩
          next => exact Nat.zero_le _
  | iterate ticket =>
      refine Nat.succ_le_succ ?_
      cases live : engine.states.get? ticket with
      | none =>
          simp only [perform, iterate, live]
          exact Nat.zero_le _
      | some state =>
          simp only [perform, iterate, live]
          split
          next child _ _ _ _ _ atNode isProgress =>
              refine owed_restart fair ready.1 live atNode rfl (silent child ?_) _
              exact ⟨ticket, state, .inr rfl, live, by rw [isProgress]; rfl, by rw [atNode]; rfl⟩
          next => exact Nat.zero_le _
  | offer ticket event => exact Nat.succ_le_succ (owed_offer fair ready.1 ticket event)
  | expire ticket => exact Nat.succ_le_succ (owed_expire fair ready.1 ticket)

end Performing

end Engine

end EventQuery
