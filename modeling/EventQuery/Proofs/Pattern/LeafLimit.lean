import EventQuery.Proofs.Pattern.Finished
import EventQuery.Proofs.Pattern.Seats
import Mathlib

namespace EventQuery

/-!
# The limit of live leaves

A right operand starts only while fewer leaves are live than the limit.  When right sides start only
filters and timers over and over, this bounds the live leaves by the limit and the leaves of the
pattern.  What starts over on a right side is not tested against the limit: with larger operands
there, many states can lose leaves, make room for more states, and then start over together.
-/

namespace Engine

open CompiledPattern

section Calls

variable {compiled : CompiledPattern} {law : RowLaw compiled} {moment horizon : Nat}
  {engine : Engine}

/-- What holds in the middle of every call about the seats of an engine. -/
structure Tallied
    {compiled : CompiledPattern}
    (law : RowLaw compiled)
    (moment horizon : Nat)
    (engine : Engine) : Prop where
  persists : Persists law moment horizon engine
  siblings : Siblings compiled engine
  orderly : Orderly compiled engine engine.agenda
  seated : Seated compiled engine engine.agenda

theorem Tallied.step
    (table : compiled.Sound)
    (restarts : compiled.RestartsLeaves)
    (tallied : Tallied law moment horizon engine) :
    Tallied law moment horizon engine.step := by
  obtain ⟨persists, siblings, orderly, seated⟩ := tallied
  have persistsThen := persists.step table
  cases isAgenda : engine.agenda with
  | nil =>
      rw [step_of_isAtRest (List.isEmpty_iff.mpr isAgenda)]
      exact ⟨persists, siblings, orderly, seated⟩
  | cons task rest =>
      have ready := persists.due
      have startsOver : StartsOver compiled engine engine.agenda := persists.startsOver
      rw [Due, isAgenda] at ready
      rw [isAgenda] at orderly seated startsOver
      rw [step_of_agenda isAgenda] at persistsThen ⊢
      obtain ⟨_, _, coherent⟩ := ready.exists_coherent
      obtain ⟨spaced, once, idle⟩ := orderly.perform table restarts ready siblings
      exact ⟨persistsThen, (outcome_perform table ready).siblings coherent siblings,
        ⟨spaced, once, idle⟩, seated.perform table restarts ready orderly startsOver⟩

theorem Tallied.performTasks
    (table : compiled.Sound)
    (restarts : compiled.RestartsLeaves)
    (tallied : Tallied law moment horizon engine)
    (tasks : Nat) :
    Tallied law moment horizon (engine.performTasks tasks) := by
  induction tasks generalizing engine with
  | zero => exact tallied
  | succ tasks inductionHypothesis =>
      rw [Engine.performTasks]
      split
      next => exact tallied
      next => exact inductionHypothesis (tallied.step table restarts)

/-- What holds between calls about the seats of an engine. -/
structure Balanced (compiled : CompiledPattern) (engine : Engine) : Prop where
  siblings : Siblings compiled engine
  seated : Seated compiled engine []

theorem Tallied.balanced
    (tallied : Tallied law moment horizon engine)
    (atRest : engine.isAtRest = true) :
    Balanced compiled engine where
  siblings := tallied.siblings
  seated := List.isEmpty_iff.mp atRest ▸ tallied.seated

/-- An engine that begins to start has a root only, which stands on no right side. -/
private theorem tallied_opened
    (table : compiled.Sound)
    (law : RowLaw compiled)
    (limit patience : Nat)
    (now : Int) :
    Tallied law 0 0 (opened compiled limit patience now) := by
  have isRoot : ∀ {ticket : Ticket} {state : PatternState},
      (opened compiled limit patience now).states.get? ticket = some state →
        (opened compiled limit patience now).root = some ticket ∧
          state.node = CompiledPattern.rootNumber := by
    intro ticket state live
    have sound := (coherent_idle law limit patience now).kept.sound
    rcases get?_create_cases sound live with ⟨isRoot, isNew⟩ | ⟨_, old⟩
    · exact ⟨congrArg some isRoot.symm, isNew ▸ rfl⟩
    · rw [idle, Pool.get?_empty] at old
      cases old
  refine ⟨persists_opened table law limit patience now, ?_,
    ⟨List.pairwise_singleton _ _, ?_, trivial⟩, ?_⟩
  · intro first second _ _ _ firstLive secondLive _ _ _ _
    exact Option.some.inj ((isRoot firstLive).1.symm.trans (isRoot secondLive).1)
  · intro task member
    cases member
  · have noSeats : seats compiled (opened compiled limit patience now)
        (opened compiled limit patience now).agenda = ∅ := by
      refine Set.eq_empty_of_forall_notMem ?_
      rintro seat ⟨state, live, ⟨right, ⟨top, left, atTop⟩, below⟩, _⟩
      have behind := (table.operandRange ⟨_, atTop, List.mem_cons_of_mem _ List.mem_cons_self⟩).1
      have ahead := below.le table
      rw [(isRoot live).2, CompiledPattern.rootNumber] at ahead
      omega
    rw [Seated, noSeats, Set.encard_empty]
    exact zero_le

end Calls

section Runs

variable {compiled : CompiledPattern} {limit patience : Nat} {now : Int} {calls : List Call}
  {engine : Engine}

/-- What brings an event or a time claims no state. -/
private theorem not_claims_of_isStimulus
    {task : Task}
    (isStimulus : task.isStimulus = true)
    (number : Nat)
    (ticket : Ticket) :
    ¬compiled.Claims number ticket task := by
  rintro (starts | restarts)
  · rw [(Task.subject?_of_started? starts).2] at isStimulus
    cases isStimulus
  · cases restarts <;> cases isStimulus

/-- Tasks that claim no state are in order. -/
private theorem orderly_of_not_claims
    {tasks : List Task}
    (unclaimed :
      ∀ task ∈ tasks, ∀ (number : Nat) (ticket : Ticket), ¬compiled.Claims number ticket task) :
    Orderly compiled engine tasks := by
  have idle : ∀ {others : List Task} {number : Nat}, others ⊆ tasks →
      ¬Waiting compiled engine others number := by
    rintro others number subset ⟨task, member, ticket, _, _, _, claims⟩
    exact unclaimed task (subset member) _ _ claims
  constructor
  case spaced =>
      refine List.pairwise_of_forall_mem_list fun task _ later member => ?_
      intro ticket state number _ _ waiting
      exact absurd waiting (idle (List.cons_subset.mpr ⟨member, List.nil_subset _⟩))
  case once =>
      intro task member ticket state operator starts
      exact absurd (.inl starts) (unclaimed task (List.mem_of_mem_tail member) operator ticket)
  case idle =>
      cases tasks with
      | nil => trivial
      | cons task rest =>
          cases task with
          | report receiver sender signal =>
              cases receiver with
              | none => trivial
              | some receiver =>
                  intro _ _ _ _ _ _ _ _ waiting
                  exact absurd waiting (idle (List.subset_cons_self _ _))
          | _ => trivial

/-- A call other than a stop begins with the seats that there are. -/
private theorem Run.tallied_begun
    (table : compiled.Sound)
    (run : Run compiled limit patience now calls engine)
    (balanced : Balanced compiled engine)
    {next : Call}
    (goesOn : next ≠ .stop) :
    Tallied (RowLaw.width compiled) (calls.length + 1) engine.next (engine.begun next) := by
  have unclaimed : ∀ task ∈ (engine.begun next).agenda, ∀ (number : Nat) (ticket : Ticket),
      ¬compiled.Claims number ticket task := fun _ member =>
    not_claims_of_isStimulus (isStimulus_begun run.atRest member)
  have same : (engine.begun next).states = engine.states ∧
      (engine.begun next).limit = engine.limit := by
    cases next with
    | stop => exact absurd rfl goesOn
    | _ => exact ⟨rfl, rfl⟩
  refine ⟨run.persists_begun table (run.keepsOn table) next, ?_,
    orderly_of_not_claims unclaimed, ?_⟩
  · intro first second _ _ _ firstLive secondLive
    rw [same.1] at firstLive secondLive
    exact balanced.siblings firstLive secondLive
  · rw [Seated, same.2]
    refine (Set.encard_le_encard (seats_subset (fun live => ?_) fun ticket starts => ?_)).trans
      balanced.seated
    · exact ⟨_, same.1 ▸ live, rfl⟩
    · obtain ⟨task, member, isStarted⟩ := List.mem_filterMap.mp starts
      exact absurd (.inl isStarted) (unclaimed task member 0 ticket)

/-- Between the calls of a run there are no more seats than the limit and the places. -/
theorem Run.balanced
    (table : compiled.Sound)
    (restarts : compiled.RestartsLeaves)
    (run : Run compiled limit patience now calls engine) :
    Balanced compiled engine := by
  induction run with
  | start returned =>
      have opened := tallied_opened table (RowLaw.width compiled) limit patience now
      exact (opened.performTasks table restarts patience).balanced returned
  | @call calls engine next before returned inductionHypothesis =>
      by_cases isStop : next = .stop
      · subst isStop
        have noStates : ∀ ticket, (engine.call .stop).1.states.get? ticket = none :=
          fun ticket => Pool.get?_clear _ ticket
        constructor
        · intro first second parent state other live
          rw [noStates] at live
          cases live
        · have noSeats : seats compiled (engine.call .stop).1 [] = ∅ := by
            refine Set.eq_empty_of_forall_notMem ?_
            rintro seat ⟨state, live, _⟩
            rw [noStates] at live
            cases live
          rw [Seated, noSeats, Set.encard_empty]
          exact zero_le
      · have tallied := before.tallied_begun table inductionHypothesis isStop
        rw [call_eq isStop] at returned ⊢
        obtain ⟨siblings, seated⟩ :=
          (tallied.performTasks table restarts (engine.begun next).patience).balanced returned
        exact ⟨siblings, seated⟩

/-! ## Leaves and seats -/

/-- A state that counts as a leaf runs one. -/
theorem Coherent.runs_leaf
    {law : RowLaw compiled}
    {moment horizon : Nat}
    {starting : List Ticket}
    {gap : Option (Ticket × PatternState)}
    {ticket : Ticket}
    {state : PatternState}
    (coherent : engine.Coherent law moment horizon starting gap [])
    (live : engine.states.get? ticket = some state)
    (isLeaf : state.isLeaf = true) :
    compiled.IsLeaf state.node := by
  obtain ⟨node, atNode, fits⟩ := coherent.kept.fits live
  refine ⟨node, atNode, ?_⟩
  rw [PatternState.isLeaf] at isLeaf
  generalize state.progress = progress at fits isLeaf
  cases fits <;> first | rfl | cases isLeaf

/-- Leaves on no right side are as many as their nodes at most. -/
private theorem Coherent.encard_early_le
    {law : RowLaw compiled}
    {moment horizon : Nat}
    (table : compiled.Sound)
    (coherent : engine.Coherent law moment horizon [] none [])
    (siblings : Siblings compiled engine) :
    {ticket | ∃ state, engine.states.get? ticket = some state ∧ state.isLeaf = true ∧
        ¬compiled.OnRight state.node}.encard ≤
      {number | ¬compiled.OnRight number ∧ compiled.IsLeaf number}.encard := by
  refine encard_le_of_relates
    (fun ticket number => ∃ state, engine.states.get? ticket = some state ∧ state.node = number)
    ?_ ?_
  · rintro ticket ⟨state, live, isLeaf, early⟩
    exact ⟨state.node, ⟨early, coherent.runs_leaf live isLeaf⟩, state, live, rfl⟩
  · rintro first ⟨state, live, _, early⟩ second _ number ⟨_, firstLive, isFirst⟩
      ⟨_, secondLive, isSecond⟩
    cases live.symm.trans firstLive
    exact coherent.unique table siblings (isFirst ▸ early) firstLive secondLive isFirst isSecond

/-- Every leaf on a right side has a seat. -/
private theorem Coherent.encard_late_le
    {law : RowLaw compiled}
    {moment horizon : Nat}
    (table : compiled.Sound)
    (coherent : engine.Coherent law moment horizon [] none [])
    (siblings : Siblings compiled engine) :
    {ticket | ∃ state, engine.states.get? ticket = some state ∧ state.isLeaf = true ∧
        compiled.OnRight state.node}.encard ≤
      (seats compiled engine []).encard := by
  refine encard_le_of_relates (fun leaf seat => Occupies compiled engine seat leaf) ?_ ?_
  · rintro leaf ⟨state, live, isLeaf, onRight⟩
    by_cases isRepeated : ∃ operator, compiled.Repeats operator state.node
    · obtain ⟨operator, repeats⟩ := isRepeated
      obtain ⟨parent, owner, hasParent, ownerLive, rfl, _⟩ :=
        coherent.exists_parent table live repeats.isOperand
      refine ⟨(parent, owner.node), ⟨owner, ownerLive, ?_, .inl ⟨_, repeats⟩, .inl rfl⟩,
        state, live, .inr ⟨hasParent, repeats⟩⟩
      exact onRight.toOperator table repeats.isOperand (repeats.not_isRight table)
    · have unrepeated : ∀ operator, ¬compiled.Repeats operator state.node :=
        fun operator repeats => isRepeated ⟨operator, repeats⟩
      exact ⟨(leaf, state.node),
        ⟨state, live, onRight, .inr ⟨coherent.runs_leaf live isLeaf, unrepeated⟩, .inl rfl⟩,
        state, live, .inl ⟨rfl, rfl, unrepeated⟩⟩
  · -- What has a seat of its own starts nothing over.
    have apart : ∀ {first : Ticket} {seat : Ticket × Nat} {state other : PatternState},
        engine.states.get? first = some state → state.isLeaf = true → seat.2 = state.node →
          ¬compiled.Repeats seat.2 other.node := by
      intro first seat state other live isLeaf isOwn repeats
      exact (coherent.runs_leaf live isLeaf).not_repeats (isOwn ▸ repeats)
    rintro first ⟨_, firstLive, firstLeaf, _⟩ second ⟨_, secondLive, secondLeaf, _⟩ seat
      ⟨state, live, inFirst⟩ ⟨other, otherLive, inSecond⟩
    cases firstLive.symm.trans live
    cases secondLive.symm.trans otherLive
    rcases inFirst with ⟨isFirst, isOwn, _⟩ | ⟨firstParent, firstRepeats⟩
    · rcases inSecond with ⟨isSecond, _⟩ | ⟨_, repeats⟩
      · exact isFirst.trans isSecond.symm
      · exact absurd repeats (apart live firstLeaf isOwn)
    · rcases inSecond with ⟨_, isOwn, _⟩ | ⟨secondParent, secondRepeats⟩
      · exact absurd firstRepeats (apart otherLive secondLeaf isOwn)
      · exact siblings live otherLive firstParent secondParent
          (secondRepeats.unique firstRepeats.isOperand) (firstRepeats.not_isRight table)

/--
The partial matches of an engine are its live filters and timers.  Where right sides of sequences
start only filters and timers over and over, they are never more than the limit and the leaves of
the pattern.
-/
theorem Run.partialMatchCount_le
    {schema : Schema}
    {expr : PatternExpr}
    (success : CompiledPattern.compile schema expr = .ok compiled)
    (restartsLeaves : expr.restartsLeaves false = true)
    (run : Run compiled limit patience now calls engine) :
    engine.partialMatchCount = engine.states.count PatternState.isLeaf ∧
      engine.partialMatchCount ≤ limit + compiled.nodes.countP PatternNode.isLeaf := by
  have table := CompiledPattern.sound_of_compile success
  have restarts : compiled.RestartsLeaves := restartsLeaves_of_compile success restartsLeaves
  have coherent := run.coherent table (RowLaw.width compiled) fun _ => trivial
  obtain ⟨siblings, seated⟩ := run.balanced table restarts
  have isCount : engine.leaves = engine.states.count PatternState.isLeaf := by
    rw [← coherent.indexed.leaves, List.countP_nil, Nat.add_zero]
  refine ⟨isCount, ?_⟩
  have counted : (engine.leaves : ℕ∞) =
      {ticket | ∃ state, engine.states.get? ticket = some state ∧
        state.isLeaf = true}.encard := by
    rw [Pool.encard_tickets, isCount]
  have sides : {ticket | ∃ state, engine.states.get? ticket = some state ∧ state.isLeaf = true} ⊆
      {ticket | ∃ state, engine.states.get? ticket = some state ∧ state.isLeaf = true ∧
          ¬compiled.OnRight state.node} ∪
        {ticket | ∃ state, engine.states.get? ticket = some state ∧ state.isLeaf = true ∧
          compiled.OnRight state.node} := by
    rintro ticket ⟨state, live, isLeaf⟩
    by_cases onRight : compiled.OnRight state.node
    · exact .inr ⟨state, live, isLeaf, onRight⟩
    · exact .inl ⟨state, live, isLeaf, onRight⟩
  have bounded : (engine.leaves : ℕ∞) ≤
      limit + (compiled.nodes.countP PatternNode.isLeaf : ℕ∞) :=
    calc (engine.leaves : ℕ∞)
      _ ≤ _ := counted.le.trans ((Set.encard_le_encard sides).trans (Set.encard_union_le _ _))
      _ ≤ {number | ¬compiled.OnRight number ∧ compiled.IsLeaf number}.encard +
          (limit + compiled.rightPlaces.encard) :=
        add_le_add (coherent.encard_early_le table siblings)
          ((coherent.encard_late_le table siblings).trans (run.terms.2.1 ▸ seated))
      _ ≤ {number | ¬compiled.OnRight number ∧ compiled.IsLeaf number}.encard +
          (limit + {number | compiled.OnRight number ∧ compiled.IsLeaf number}.encard) :=
        add_le_add_right (add_le_add_right (encard_rightPlaces_le table restarts) _) _
      _ = limit + (compiled.nodes.countP PatternNode.isLeaf : ℕ∞) := by
        rw [add_left_comm, encard_leaves]
  exact_mod_cast bounded

/-- A pattern that matches every tick behind every other one, compiled. -/
def ticksBehindTicks : CompiledPattern :=
  ⟨[.sequence 1 3, .every 2, .filter "Tick" none none, .every 4, .filter "Tick" none none], []⟩

/-- The second tick starts no right side, and the filters of both sides start over. -/
theorem Run.partialMatchCount_le_ticksBehindTicks :
    CompiledPattern.compile tickSchema
        (.sequence (.every (.filter ⟨none, "Tick", none⟩))
          (.every (.filter ⟨none, "Tick", none⟩))) = .ok ticksBehindTicks ∧
      (((Engine.start ticksBehindTicks 1 20 0).call (.event tick)).1.call
        (.event tick)).1.partialMatchCount ≤ 1 + 2 := by
  have compiles : CompiledPattern.compile tickSchema
      (.sequence (.every (.filter ⟨none, "Tick", none⟩))
        (.every (.filter ⟨none, "Tick", none⟩))) = .ok ticksBehindTicks := rfl
  have run : Run ticksBehindTicks 1 20 0 [.event tick, .event tick]
      (((Engine.start ticksBehindTicks 1 20 0).call (.event tick)).1.call (.event tick)).1 :=
    .call (.event tick) (.call (.event tick) (.start rfl) (by cbv)) (by cbv)
  exact ⟨compiles, (run.partialMatchCount_le compiles rfl).2⟩

/-- A schema with ticks, tocks and chimes. -/
def clockSchema : Schema :=
  (tickSchema.addShape ⟨"Tock", true, [], []⟩).addShape ⟨"Chime", true, [], []⟩

/-- The call that shows an event of one of these types. -/
def soundOf (kind : String) : Call := .event ⟨.given 0, kind, []⟩

/-- A pattern that waits for tocks with chimes behind each tick, compiled. -/
def chimesBehindTicks : CompiledPattern :=
  ⟨[.sequence 1 3, .every 2, .filter "Tick" none none, .every 4, .conjunction [5, 6],
      .filter "Tock" none none, .filter "Chime" none none], []⟩

/--
With a limit of three and three leaves in the pattern, three ticks with a tock behind each leave
four live leaves.  The chime then starts three conjunctions over at once, and seven leaves are live.
-/
theorem not_partialMatchCount_le_chimesBehindTicks :
    CompiledPattern.compile clockSchema
        (.sequence (.every (.filter ⟨none, "Tick", none⟩))
          (.every (.conjunction [.filter ⟨none, "Tock", none⟩, .filter ⟨none, "Chime", none⟩]))) =
        .ok chimesBehindTicks ∧
      ∃ engine, Run chimesBehindTicks 3 30 0
          [soundOf "Tick", soundOf "Tock", soundOf "Tick", soundOf "Tock", soundOf "Tick",
            soundOf "Tock", soundOf "Chime"] engine ∧
        ¬engine.partialMatchCount ≤ 3 + chimesBehindTicks.nodes.countP PatternNode.isLeaf := by
  refine ⟨rfl, _, .call _ (.call _ (.call _ (.call _ (.call _ (.call _ (.call _ (.start rfl)
    ?_) ?_) ?_) ?_) ?_) ?_) ?_, ?_⟩
  all_goals cbv

end Runs

end Engine

end EventQuery
