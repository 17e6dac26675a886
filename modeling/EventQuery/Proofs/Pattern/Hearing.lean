import EventQuery.Proofs.Pattern.Beginning

namespace EventQuery

namespace Engine

/-!
# Answers of states that hear of their only operand

An operator that hears of a last match or a failure has the sender in the gap.  It fills the gap
when it drops the sender from its progress, or leaves the gap to its own parent when it finishes.
-/

/-- What a state hears of an operand that started with a row. -/
inductive Hears
    {compiled : CompiledPattern}
    (law : RowLaw compiled)
    (moment : Nat)
    (receiver sender : Ticket)
    (child : Nat)
    (start : Row) : Option (Ticket × PatternState) → Signal → Prop where
  | running {row : Row} :
      law.yield (moment + 1) child start row →
        Hears law moment receiver sender child start none (.matched row false)
  | last {row : Row} {state : PatternState} :
      state.parent = some receiver → law.yield (moment + 1) child start row →
        (∀ negated, compiled.nodes[child]? ≠ some (.negation negated)) →
          Hears law moment receiver sender child start (some (sender, state)) (.matched row true)
  | failed {state : PatternState} {restartable : Bool} :
      state.parent = some receiver →
        Hears law moment receiver sender child start (some (sender, state)) (.failed restartable)

section Hears

variable {compiled : CompiledPattern} {law : RowLaw compiled} {moment horizon : Nat}
  {engine : Engine} {starting : List Ticket} {gap : Option (Ticket × PatternState)}
  {ticket sender : Ticket} {state : PatternState} {child : Nat} {start : Row} {signal : Signal}
  {node : PatternNode}

theorem Hears.ofOperand
    (hears : Hears law moment ticket sender child start gap signal)
    {gone : Ticket}
    {held : PatternState}
    (isGap : gap = some (gone, held)) :
    held.parent = some ticket := by
  cases hears with
  | running _ =>
      cases isGap
  | last hasParent _ _ =>
      cases isGap
      exact hasParent
  | failed hasParent =>
      cases isGap
      exact hasParent

/-- Only a last match is heard of an operand that is gone. -/
theorem Hears.of_matched
    {row : Row}
    {isLast : Bool}
    (hears : Hears law moment ticket sender child start gap (.matched row isLast)) :
    law.yield (moment + 1) child start row ∧
      (∀ {gone : Ticket} {held : PatternState},
        gap = some (gone, held) → gone = sender ∧ isLast = true) ∧
      (isLast = true → ∃ held, gap = some (sender, held)) := by
  cases hears with
  | running yields =>
      exact ⟨yields, by simp, by simp⟩
  | last _ yields _ =>
      refine ⟨yields, ?_, fun _ => ⟨_, rfl⟩⟩
      intro gone held isGap
      cases isGap
      exact ⟨rfl, rfl⟩

/-- A state drops its only operand, or the left one of a sequence, when it is gone. -/
theorem Coherent.dropChild
    {gone : PatternState}
    (coherent : engine.Coherent law moment horizon starting (some (sender, gone)) [])
    (live : engine.states.get? ticket = some state)
    (atNode : compiled.nodes[state.node]? = some node)
    (hasParent : gone.parent = some ticket)
    (fits :
      law.Fits (moment + 1) state.node state.bindings node state.progress.withoutChild)
    (first : state.progress.children = sender :: state.progress.withoutChild.children)
    (carries :
      ∀ {other : Ticket} {number : Nat} {row : Row}, other ≠ sender →
        law.Adopts (moment + 1) state.node state.bindings node state.progress other number row →
          law.Adopts (moment + 1) state.node state.bindings node state.progress.withoutChild other
            number row) :
    (engine.update ticket Progress.withoutChild).Coherent law moment horizon starting none [] := by
  refine coherent.revise live atNode ?_ fits ?_ ?_ ?_ ?_
  · intro other child isGap
    cases isGap
    exact hasParent
  · cases state.progress <;> rfl
  · rw [first]
    exact List.sublist_cons_self _ _
  · intro other child isGap
    cases isGap
    have distinct := coherent.kept.childrenNodup live
    rw [first] at distinct
    exact (List.nodup_cons.mp distinct).1
  · intro other number row noGap adopted
    exact carries (fun same => noGap gone (by rw [same])) adopted

/-- A pattern under `every` hears of its operand. -/
theorem answers_receiveEvery
    (coherent : engine.Coherent law moment horizon starting gap [])
    (outside : ticket ∉ starting)
    (live : engine.states.get? ticket = some state)
    (atNode : compiled.nodes[state.node]? = some (.every child))
    (shape : state.progress = .every (some sender))
    (hears : Hears law moment ticket sender child state.bindings gap signal) :
    Answers law moment horizon engine starting (engine.receiveEvery ticket state signal) := by
  have starts := coherent.kept.starts_next live
  have drops : ∀ {gone : PatternState}, gap = some (sender, gone) →
      (engine.update ticket Progress.withoutChild).Coherent law moment horizon starting none
        [] := by
    intro gone isGap
    subst isGap
    refine coherent.dropChild live atNode (hears.ofOperand rfl) ?_ ?_ ?_
    · rw [shape]
      exact .every
    · rw [shape]
      rfl
    · intro other number row different adopted
      rw [shape] at adopted
      cases adopted
      exact absurd rfl different
  have evolves := evolves_update engine ticket Progress.withoutChild
  have liveDropped := get?_update_self live Progress.withoutChild
  cases hears with
  | running yields =>
      exact answers_reportMatch_alone coherent live
        (law.yield_passing atNode (.head _) starts yields)
  | last hasParent yields _ =>
      refine (answers_reportMatch (drops rfl) liveDropped
        (law.yield_passing atNode (.head _) starts yields) rfl ?_).of_evolves evolves
      intro task member
      cases List.mem_singleton.mp member
      exact ⟨.inl ⟨_, liveDropped⟩, outside⟩
  | @failed gone restartable hasParent =>
      cases restartable with
      | true =>
          refine ⟨evolves, by simp [receiveEvery, Task.started, Task.started?], ?_⟩
          refine ready_of_apt (drops rfl) fun task member => ?_
          cases List.mem_singleton.mp member
          exact ⟨.inl ⟨_, liveDropped⟩, outside⟩
      | false =>
          exact (answers_finish_failed (drops rfl) liveDropped (by simp) false).of_evolves evolves

/-- A repetition collects the match of its operand, and drops the operand after its last match. -/
private theorem Coherent.countRound
    (coherent : engine.Coherent law moment horizon starting gap [])
    (live : engine.states.get? ticket = some state)
    {least count : Nat}
    {most : Option Nat}
    {innerSlots : List Nat}
    (atNode : compiled.nodes[state.node]? = some (.repetition child least most innerSlots))
    {collected total : Row}
    (shape : state.progress = .repetition (some sender) count collected)
    {row : Row}
    {isLast : Bool}
    (hears : Hears law moment ticket sender child start gap (.matched row isLast))
    (rounds : law.rounds (moment + 1) state.node state.bindings (count + 1) total) :
    (engine.update ticket fun _ =>
        .repetition (if isLast then none else some sender) (count + 1) total).Coherent law moment
      horizon starting none [] := by
  obtain ⟨_, onlySender, gone⟩ := hears.of_matched
  refine coherent.revise live atNode hears.ofOperand (.repetition rounds) ?_ ?_ ?_ ?_
  · rw [shape]
    rfl
  · rw [shape]
    cases isLast with
    | true => exact List.nil_sublist _
    | false => exact List.Sublist.refl _
  · intro other held isGap
    simp [(onlySender isGap).2, Progress.children]
  · intro other number started noGap adopted
    rw [shape] at adopted
    cases adopted with
    | repetition before inOrder =>
        have goesOn : isLast ≠ true := by
          intro last
          obtain ⟨held, isGap⟩ := gone last
          exact noGap held isGap
        rw [if_neg goesOn]
        exact .repetition before (Nat.le_succ_of_le inOrder)

/-- A repetition hears of its operand. -/
theorem answers_receiveRepetition
    (coherent : engine.Coherent law moment horizon starting gap [])
    (outside : ticket ∉ starting)
    (live : engine.states.get? ticket = some state)
    {least count earlier : Nat}
    {most : Option Nat}
    {innerSlots : List Nat}
    (atNode : compiled.nodes[state.node]? = some (.repetition child least most innerSlots))
    {early collected : Row}
    (shape : state.progress = .repetition (some sender) count collected)
    (begun : law.rounds (moment + 1) state.node state.bindings earlier early)
    (order : earlier ≤ count)
    (hears :
      Hears law moment ticket sender child (roundBindings early innerSlots) gap signal) :
    Answers law moment horizon engine starting
      (engine.receiveRepetition ticket state least most innerSlots (some sender) count collected
        signal) := by
  cases signal with
  | failed restartable =>
      exact answers_finish_failed coherent live hears.ofOperand restartable
  | matched row isLast =>
      have starts := coherent.kept.starts_next live
      have rounds : law.rounds (moment + 1) state.node state.bindings count collected := by
        obtain ⟨node, atState, fits⟩ := coherent.kept.fits live
        cases atNode.symm.trans atState
        rw [shape] at fits
        cases fits with
        | repetition rounds => exact rounds
      have total := law.rounds_collect atNode starts order begun rounds hears.of_matched.1
      have found := law.yield_rounds atNode starts total
      have counted := coherent.countRound live atNode shape hears total
      have evolves := evolves_update engine ticket fun _ =>
        .repetition (if isLast then none else some sender) (count + 1)
          (collect collected row innerSlots)
      have liveCounted := get?_update_self live fun _ =>
        .repetition (if isLast then none else some sender) (count + 1)
          (collect collected row innerSlots)
      simp only [receiveRepetition]
      generalize (engine.update ticket fun _ =>
        .repetition (if isLast then none else some sender) (count + 1)
          (collect collected row innerSlots)) = later at counted evolves liveCounted ⊢
      have apt : ∀ task ∈ [Task.iterate ticket],
          Apt law moment horizon later starting task := by
        intro task member
        cases List.mem_singleton.mp member
        exact ⟨.inl ⟨_, liveCounted⟩, outside⟩
      split
      next =>
          exact (answers_finish_last counted liveCounted (by simp) found
            (CompiledPattern.not_negation atNode (by simp))).of_evolves evolves
      next =>
          split
          next =>
              exact (answers_reportMatch counted liveCounted found rfl apt).of_evolves evolves
          next =>
              exact ⟨evolves, by simp [Task.started, Task.started?], counted, apt⟩

/-- A negation hears of its operand. -/
theorem answers_receiveNegation
    (coherent : engine.Coherent law moment horizon starting gap [])
    (live : engine.states.get? ticket = some state)
    (atNode : compiled.nodes[state.node]? = some (.negation child))
    (shape : state.progress = .negation (some sender))
    (hears : Hears law moment ticket sender child state.bindings gap signal) :
    Answers law moment horizon engine starting (engine.receiveNegation ticket signal) := by
  have ofOperand : ∀ {gone : Ticket} {held : PatternState},
      gap = some (gone, held) → held.parent = some ticket :=
    fun isGap => hears.ofOperand isGap
  cases hears with
  | running _ =>
      exact answers_finish_failed coherent live ofOperand true
  | last _ _ _ =>
      exact answers_finish_failed coherent live ofOperand true
  | failed hasParent =>
      refine (answers_nothing ?_).of_evolves (evolves_update engine ticket Progress.withoutChild)
      refine coherent.dropChild live atNode hasParent ?_ ?_ ?_
      · rw [shape]
        exact .negation
      · rw [shape]
        rfl
      · intro other number row different adopted
        rw [shape] at adopted
        cases adopted
        exact absurd rfl different

/-- A time bound hears of its operand. -/
theorem answers_receiveWithin
    (table : compiled.Sound)
    (coherent : engine.Coherent law moment horizon starting gap [])
    (live : engine.states.get? ticket = some state)
    {duration : Nat}
    {absence : Bool}
    (atNode : compiled.nodes[state.node]? = some (.within child duration absence))
    {deadline : Int}
    {held : Option Row}
    (shape : state.progress = .within (some sender) deadline held)
    (hears : Hears law moment ticket sender child state.bindings gap signal) :
    Answers law moment horizon engine starting
      (engine.receiveWithin ticket state absence (some sender) deadline signal) := by
  have starts := coherent.kept.starts_next live
  have ofOperand : ∀ {gone : Ticket} {other : PatternState},
      gap = some (gone, other) → other.parent = some ticket :=
    fun isGap => hears.ofOperand isGap
  cases hears with
  | @running row yields =>
      cases absence with
      | false =>
          exact answers_reportMatch_alone coherent live
            (law.yield_passing atNode (.head _) starts yields)
      | true =>
          refine (answers_nothing ?_).of_evolves (evolves_update engine ticket fun _ =>
            .within (some sender) deadline (some row))
          refine coherent.revise live atNode (by simp) (.within ?_) ?_ ?_ (by simp) ?_
          · intro found isFound
            cases isFound
            exact yields
          · rw [shape]
            rfl
          · rw [shape]
            exact List.Sublist.refl _
          · intro other number started _ adopted
            rw [shape] at adopted
            cases adopted with
            | within => exact .within
  | last _ yields isNone =>
      cases absence with
      | false =>
          exact answers_finish_last coherent live ofOperand
            (law.yield_passing atNode (.head _) starts yields)
            (CompiledPattern.not_negation atNode (by simp))
      | true =>
          obtain ⟨negated, isNegation⟩ := table.absence atNode
          exact absurd isNegation (isNone negated)
  | failed _ =>
      exact answers_finish_failed coherent live ofOperand _

/-- A condition that is tested leaves all but the faults as they were. -/
theorem test_frame
    (engine : Engine)
    (condition : Node)
    (row : Row) :
    ∃ faults, (engine.test condition row).1 = { engine with faults } := by
  unfold test
  split
  next => exact ⟨engine.faults, rfl⟩
  next fault _ => exact ⟨engine.faults ++ [fault], rfl⟩

theorem Coherent.withFaults
    (coherent : engine.Coherent law moment horizon starting gap [])
    (faults : List Fault) :
    Coherent law moment horizon { engine with faults } starting gap [] where
  kept := { coherent.kept with }
  linked := { coherent.linked with }
  fresh := { coherent.fresh with }
  indexed := { coherent.indexed with }

/-- A guard hears of its operand. -/
theorem answers_receiveGuarded
    (coherent : engine.Coherent law moment horizon starting gap [])
    (live : engine.states.get? ticket = some state)
    {guard : Node}
    (atNode : compiled.nodes[state.node]? = some (.guarded child guard))
    (hears : Hears law moment ticket sender child state.bindings gap signal) :
    Answers law moment horizon engine starting
      (engine.receiveGuarded ticket state guard signal) := by
  have starts := coherent.kept.starts_next live
  have ofOperand : ∀ {gone : Ticket} {other : PatternState},
      gap = some (gone, other) → other.parent = some ticket :=
    fun isGap => hears.ofOperand isGap
  cases hears with
  | @running row yields =>
      obtain ⟨faults, tested⟩ := test_frame engine guard row
      simp only [receiveGuarded, tested]
      split
      next =>
          exact (answers_finish_failed (coherent.withFaults faults) live ofOperand true).of_evolves
            (.of_states_eq rfl)
      next =>
          exact (answers_reportMatch_alone (coherent.withFaults faults) live
            (law.yield_passing atNode (.head _) starts yields)).of_evolves (.of_states_eq rfl)
  | @last row gone hasParent yields isNone =>
      obtain ⟨faults, tested⟩ := test_frame engine guard row
      simp only [receiveGuarded, tested]
      split
      next =>
          exact (answers_finish_failed (coherent.withFaults faults) live ofOperand true).of_evolves
            (.of_states_eq rfl)
      next =>
          exact (answers_finish_last (coherent.withFaults faults) live ofOperand
            (law.yield_passing atNode (.head _) starts yields)
            (CompiledPattern.not_negation atNode (by simp))).of_evolves (.of_states_eq rfl)
  | failed _ =>
      exact answers_finish_failed coherent live ofOperand _

end Hears

end Engine

end EventQuery
