import EventQuery.Proofs.Pattern.Hearing

namespace EventQuery

namespace Engine

/-!
# Answers of states that hear of one of several operands

Sequences, alternations and conjunctions list several states.  The one that is gone is dropped from
its place, and all others stay where they are.
-/

section Several

variable {compiled : CompiledPattern} {law : RowLaw compiled} {moment horizon : Nat}
  {engine : Engine} {starting : List Ticket} {gap : Option (Ticket × PatternState)}
  {ticket sender : Ticket} {state : PatternState} {child : Nat} {start : Row} {signal : Signal}

theorem answers_failIfExhausted
    (coherent : engine.Coherent law moment horizon starting none [])
    (live : engine.states.get? ticket = some state)
    (restartable : Bool) :
    Answers law moment horizon engine starting (engine.failIfExhausted ticket restartable) := by
  simp only [failIfExhausted, live, Option.map_some]
  split
  next => exact answers_finish_failed coherent live (by simp) restartable
  next => exact answers_nothing coherent

/-- The match of a left operand starts a right one or is refused. -/
private theorem answers_followUp
    (table : compiled.Sound)
    (coherent : engine.Coherent law moment horizon starting none [])
    (outside : ticket ∉ starting)
    (live : engine.states.get? ticket = some state)
    {right : Nat}
    (atNode : compiled.nodes[state.node]? = some (.sequence child right))
    {running : Option Ticket}
    {rights : List Ticket}
    (shape : state.progress = .sequence running rights)
    {middle : Row}
    (yields : law.yield (moment + 1) child state.bindings middle) :
    Answers law moment horizon engine starting
      (if engine.limit ≤ engine.leaves then engine.failIfExhausted ticket true
      else
        ((engine.create right (some ticket) middle).1.update ticket
            (Progress.withRight (engine.create right (some ticket) middle).2),
          [.activate (engine.create right (some ticket) middle).2])) := by
  split
  next => exact answers_failIfExhausted coherent live true
  next =>
      exact answers_startRight coherent live outside atNode shape
        (exists_operand table atNode (by simp [PatternNode.children]))
        (law.start_right atNode (coherent.kept.starts_next live) yields) yields

/-- A sequence hears of its left operand. -/
theorem answers_receiveLeft
    (table : compiled.Sound)
    (coherent : engine.Coherent law moment horizon starting gap [])
    (outside : ticket ∉ starting)
    (live : engine.states.get? ticket = some state)
    {right : Nat}
    (atNode : compiled.nodes[state.node]? = some (.sequence child right))
    {rights : List Ticket}
    (shape : state.progress = .sequence (some sender) rights)
    (hears : Hears law moment ticket sender child state.bindings gap signal) :
    Answers law moment horizon engine starting (engine.receiveLeft ticket right signal) := by
  have drops : ∀ {gone : PatternState}, gap = some (sender, gone) →
      (engine.update ticket Progress.withoutChild).Coherent law moment horizon starting none
        [] := by
    intro gone isGap
    subst isGap
    refine coherent.dropChild live atNode (hears.ofOperand rfl) ?_ ?_ ?_
    · rw [shape]
      exact .sequence
    · rw [shape]
      rfl
    · intro other number row different adopted
      rw [shape] at adopted ⊢
      cases adopted with
      | left => exact absurd rfl different
      | right member yields => exact .right member yields
  have evolves := evolves_update engine ticket Progress.withoutChild
  have liveDropped := get?_update_self live Progress.withoutChild
  cases hears with
  | running yields =>
      exact answers_followUp table coherent outside live atNode shape yields
  | last _ yields _ =>
      have dropped : (state.advance Progress.withoutChild).progress = .sequence none rights := by
        simp [PatternState.advance, shape, Progress.withoutChild]
      exact (answers_followUp table (drops rfl) outside liveDropped atNode dropped
        yields).of_evolves evolves
  | failed _ =>
      exact (answers_failIfExhausted (drops rfl) liveDropped _).of_evolves evolves

/-- A sequence hears of a right operand. -/
theorem answers_receiveRight
    (coherent : engine.Coherent law moment horizon starting gap [])
    (live : engine.states.get? ticket = some state)
    {left : Nat}
    (atNode : compiled.nodes[state.node]? = some (.sequence left child))
    {running : Option Ticket}
    {rights : List Ticket}
    (shape : state.progress = .sequence running rights)
    (member : sender ∈ rights)
    {middle : Row}
    (passed : law.yield (moment + 1) left state.bindings middle)
    (hears : Hears law moment ticket sender child middle gap signal) :
    Answers law moment horizon engine starting
      (engine.receiveRight ticket state sender signal) := by
  have starts := coherent.kept.starts_next live
  have drops : ∀ {gone : PatternState}, gap = some (sender, gone) →
      (engine.update ticket (Progress.withoutRight sender)).Coherent law moment horizon starting
        none [] := by
    intro gone isGap
    subst isGap
    refine coherent.revise live atNode (fun isGap => hears.ofOperand isGap) ?_ ?_ ?_ ?_ ?_
    · rw [shape]
      exact .sequence
    · rw [shape]
      rfl
    · rw [shape]
      exact List.Sublist.append_left List.filter_sublist _
    · intro other held isGap
      cases isGap
      have distinct := coherent.kept.childrenNodup live
      rw [shape] at distinct ⊢
      simp only [Progress.withoutRight, Progress.children, List.mem_append, not_or]
      refine ⟨fun isLeft => ?_, by simp⟩
      exact (List.nodup_append.mp distinct).2.2 sender isLeft sender member rfl
    · intro other number row noGap adopted
      rw [shape] at adopted ⊢
      cases adopted with
      | left => exact .left
      | right inRights yields =>
          refine .right (List.mem_filter.mpr ⟨inRights, ?_⟩) yields
          simpa using fun same => noGap gone (by rw [same])
  have evolves := evolves_update engine ticket (Progress.withoutRight sender)
  have liveDropped := get?_update_self live (Progress.withoutRight sender)
  cases hears with
  | running yields =>
      have kept : (engine.update ticket id).Coherent law moment horizon starting none [] := by
        refine coherent.revise live atNode (by simp) ?_ rfl (List.Sublist.refl _) (by simp)
          (fun _ adopted => adopted)
        rw [shape]
        exact .sequence
      have report := (answers_reportMatch_alone kept (get?_update_self live id)
        (law.yield_right atNode starts passed yields)).of_evolves (evolves_update engine ticket id)
      have stays : rights ≠ [] := List.ne_nil_of_mem member
      simp only [receiveRight, Bool.false_eq_true, ↓reduceIte, shape, id]
      split
      next exhausted =>
          cases exhausted
          exact absurd rfl stays
      next => exact report
  | last _ yields _ =>
      have found := law.yield_right atNode starts passed yields
      simp only [receiveRight, ↓reduceIte]
      split
      next =>
          exact (answers_finish_last (drops rfl) liveDropped (by simp) found
            (CompiledPattern.not_negation atNode (by simp))).of_evolves evolves
      next =>
          exact (answers_reportMatch_alone (drops rfl) liveDropped found).of_evolves evolves
  | failed hasParent =>
      exact (answers_failIfExhausted (drops rfl) liveDropped _).of_evolves evolves

/-- An alternation hears of one of its operands. -/
theorem answers_receiveAlternation
    (coherent : engine.Coherent law moment horizon starting gap [])
    (live : engine.states.get? ticket = some state)
    {children : List Nat}
    (atNode : compiled.nodes[state.node]? = some (.alternation children))
    {running : List Ticket}
    (shape : state.progress = .alternation running)
    (isOperand : child ∈ children)
    (hears : Hears law moment ticket sender child state.bindings gap signal) :
    Answers law moment horizon engine starting
      (engine.receiveAlternation ticket state running sender signal) := by
  have starts := coherent.kept.starts_next live
  cases hears with
  | running yields =>
      exact answers_reportMatch_alone coherent live
        (law.yield_passing atNode isOperand starts yields)
  | last hasParent yields _ =>
      refine answers_finish_last coherent live ?_
        (law.yield_passing atNode isOperand starts yields)
        (CompiledPattern.not_negation atNode (by simp))
      intro other held isGap
      cases isGap
      exact hasParent
  | @failed gone restartable hasParent =>
      have reduced : (engine.update ticket fun _ =>
          .alternation (running.filter fun other => other != sender)).Coherent law moment horizon
            starting none [] := by
        refine coherent.revise live atNode ?_ .alternation ?_ ?_ ?_ ?_
        · intro other held isGap
          cases isGap
          exact hasParent
        · rw [shape]
          rfl
        · rw [shape]
          exact List.filter_sublist
        · intro other held isGap
          cases isGap
          simp [Progress.children]
        · intro other number row noGap adopted
          rw [shape] at adopted
          cases adopted with
          | alternation member operand =>
              refine .alternation (List.mem_filter.mpr ⟨member, ?_⟩) operand
              simpa using fun same => noGap gone (by rw [same])
      have evolves := evolves_update engine ticket fun _ =>
        .alternation (running.filter fun other => other != sender)
      simp only [receiveAlternation]
      split
      next =>
          exact (answers_finish_failed reduced (get?_update_self live _) (by simp)
            restartable).of_evolves evolves
      next => exact (answers_nothing reduced).of_evolves evolves

/-- The operand that matched is the only one recorded, because operands run in different states. -/
theorem record_eq_set
    {operands : List Conjunct}
    {place : Nat}
    {operand : Conjunct}
    (distinct : (operands.filterMap Conjunct.state).Nodup)
    (atPlace : operands[place]? = some operand)
    (isSender : operand.state = some sender)
    (row : Row)
    (isLast : Bool) :
    Conjunct.record operands sender row isLast =
      operands.set place ⟨if isLast then none else operand.state, some row⟩ := by
  induction operands generalizing place with
  | nil =>
      cases atPlace
  | cons first rest inductionHypothesis =>
      rw [Conjunct.record]
      cases place with
      | zero =>
          cases atPlace
          rw [if_pos isSender, List.set_cons_zero]
      | succ place =>
          have member : sender ∈ rest.filterMap Conjunct.state :=
            List.mem_filterMap.mpr ⟨operand, List.mem_of_getElem? atPlace, isSender⟩
          have different : first.state ≠ some sender := by
            intro same
            rw [List.filterMap_cons_some same] at distinct
            exact (List.nodup_cons.mp distinct).1 member
          have restDistinct : (rest.filterMap Conjunct.state).Nodup :=
            distinct.sublist ((List.sublist_cons_self _ _).filterMap _)
          rw [if_neg different, List.set_cons_succ, inductionHypothesis restDistinct atPlace]

private theorem forall₂_set
    {related : Nat → Conjunct → Prop}
    {numbers : List Nat}
    {operands : List Conjunct}
    (all : List.Forall₂ related numbers operands)
    {place number : Nat}
    (atPlace : numbers[place]? = some number)
    (new : Conjunct)
    (isRelated : related number new) :
    List.Forall₂ related numbers (operands.set place new) := by
  induction all generalizing place with
  | nil =>
      exact .nil
  | cons first _ inductionHypothesis =>
      cases place with
      | zero =>
          cases atPlace
          exact .cons isRelated ‹_›
      | succ place =>
          exact .cons first (inductionHypothesis atPlace)

private theorem forall₂_of_all
    {related stronger : Nat → Conjunct → Prop}
    {property : Conjunct → Prop}
    {numbers : List Nat}
    {operands : List Conjunct}
    (all : List.Forall₂ related numbers operands)
    (hold : ∀ operand ∈ operands, property operand)
    (both :
      ∀ number operand, related number operand → property operand → stronger number operand) :
    List.Forall₂ stronger numbers operands := by
  induction all with
  | nil =>
      exact .nil
  | cons first _ inductionHypothesis =>
      exact .cons (both _ _ first (hold _ (by simp)))
        (inductionHypothesis fun operand member =>
          hold operand (List.mem_cons_of_mem _ member))

private theorem filterMap_set_sublist
    {operands : List Conjunct}
    {place : Nat}
    {operand new : Conjunct}
    (atPlace : operands[place]? = some operand)
    (keepsOrLoses : new.state = none ∨ new.state = operand.state) :
    ((operands.set place new).filterMap Conjunct.state).Sublist
      (operands.filterMap Conjunct.state) := by
  induction operands generalizing place with
  | nil =>
      exact List.Sublist.refl _
  | cons first rest inductionHypothesis =>
      cases place with
      | zero =>
          cases atPlace
          rw [List.set_cons_zero]
          rcases keepsOrLoses with loses | keeps
          · rw [List.filterMap_cons_none loses]
            exact (List.sublist_cons_self _ _).filterMap _
          · simp [List.filterMap_cons, keeps]
      | succ place =>
          rw [List.set_cons_succ, List.filterMap_cons, List.filterMap_cons]
          cases first.state with
          | none => exact inductionHypothesis atPlace
          | some _ => exact (inductionHypothesis atPlace).cons_cons _

/-- An operand runs at one place only. -/
private theorem place_unique
    {operands : List Conjunct}
    (distinct : (operands.filterMap Conjunct.state).Nodup)
    {first second : Nat}
    {operand other : Conjunct}
    (atFirst : operands[first]? = some operand)
    (atSecond : operands[second]? = some other)
    (isSender : operand.state = some sender)
    (isSenderToo : other.state = some sender) :
    first = second := by
  have apart := List.pairwise_filterMap.mp distinct
  rw [List.pairwise_iff_getElem] at apart
  obtain ⟨firstInRange, isOperand⟩ := List.getElem?_eq_some_iff.mp atFirst
  obtain ⟨secondInRange, isOther⟩ := List.getElem?_eq_some_iff.mp atSecond
  rcases Nat.lt_trichotomy first second with before | same | behind
  · exact absurd rfl (apart first second firstInRange secondInRange before sender
      (isOperand ▸ isSender) sender (isOther ▸ isSenderToo))
  · exact same
  · exact absurd rfl (apart second first secondInRange firstInRange behind sender
      (isOther ▸ isSenderToo) sender (isOperand ▸ isSender))

/-- The rows that a conjunction has kept are matches of its operands. -/
private theorem Coherent.operandsYield
    (coherent : engine.Coherent law moment horizon starting gap [])
    (live : engine.states.get? ticket = some state)
    {children : List Nat}
    (atNode : compiled.nodes[state.node]? = some (.conjunction children))
    {operands : List Conjunct}
    (shape : state.progress = .conjunction operands)
    (nonempty : operands ≠ []) :
    List.Forall₂
      (fun child operand =>
        ∀ found, operand.bindings = some found →
          law.yield (moment + 1) child state.bindings found)
      children operands := by
  obtain ⟨node, atState, fits⟩ := coherent.kept.fits live
  cases atNode.symm.trans atState
  rw [shape] at fits
  cases fits with
  | conjunction begun => exact begun.resolve_left nonempty

/-- A conjunction records the match of an operand, and drops the operand after its last match. -/
private theorem Coherent.recordMatch
    (coherent : engine.Coherent law moment horizon starting gap [])
    (live : engine.states.get? ticket = some state)
    {children : List Nat}
    (atNode : compiled.nodes[state.node]? = some (.conjunction children))
    {operands : List Conjunct}
    (shape : state.progress = .conjunction operands)
    {place : Nat}
    {operand : Conjunct}
    (atOperand : operands[place]? = some operand)
    (isSender : operand.state = some sender)
    {row : Row}
    {isLast : Bool}
    (hears : Hears law moment ticket sender child start gap (.matched row isLast))
    (yielded :
      List.Forall₂
        (fun child operand =>
          ∀ found, operand.bindings = some found →
            law.yield (moment + 1) child state.bindings found)
        children (operands.set place ⟨if isLast then none else operand.state, some row⟩)) :
    (engine.update ticket fun _ =>
        .conjunction (operands.set place
          ⟨if isLast then none else operand.state, some row⟩)).Coherent law moment horizon
      starting none [] := by
  obtain ⟨_, onlySender, gone⟩ := hears.of_matched
  obtain ⟨inRange, _⟩ := List.getElem?_eq_some_iff.mp atOperand
  have distinct := coherent.kept.childrenNodup live
  rw [shape] at distinct
  refine coherent.revise live atNode hears.ofOperand (.conjunction (.inr yielded)) ?_ ?_ ?_ ?_
  · rw [shape]
    rfl
  · rw [shape]
    refine filterMap_set_sublist atOperand ?_
    cases isLast <;> simp
  · intro other held isGap member
    obtain ⟨isSenderToo, last⟩ := onlySender isGap
    obtain ⟨item, inList, isOther⟩ := List.mem_filterMap.mp member
    obtain ⟨other, atOther⟩ := List.mem_iff_getElem?.mp inList
    by_cases same : other = place
    · subst same
      rw [List.getElem?_set_self inRange] at atOther
      cases atOther
      simp [last] at isOther
    · rw [List.getElem?_set_ne (Ne.symm same)] at atOther
      rw [isSenderToo] at isOther
      exact same (place_unique distinct atOther atOperand isOther isSender)
  · intro other number started noGap adopted
    rw [shape] at adopted
    cases adopted with
    | @conjunction _ _ otherPlace _ otherOperand _ atNumber atOther isOther =>
        by_cases same : otherPlace = place
        · subst same
          cases atOperand.symm.trans atOther
          cases isSender.symm.trans isOther
          refine .conjunction atNumber (List.getElem?_set_self inRange) ?_
          have goesOn : isLast ≠ true := by
            intro last
            obtain ⟨held, isGap⟩ := gone last
            exact noGap held isGap
          simp [goesOn, isSender]
        · exact .conjunction atNumber
            (by rw [List.getElem?_set_ne (Ne.symm same)]; exact atOther) isOther

/-- A conjunction hears of one of its operands. -/
theorem answers_receiveConjunction
    (coherent : engine.Coherent law moment horizon starting gap [])
    (live : engine.states.get? ticket = some state)
    {children : List Nat}
    (atNode : compiled.nodes[state.node]? = some (.conjunction children))
    {operands : List Conjunct}
    (shape : state.progress = .conjunction operands)
    {place : Nat}
    {operand : Conjunct}
    (atChild : children[place]? = some child)
    (atOperand : operands[place]? = some operand)
    (isSender : operand.state = some sender)
    (hears : Hears law moment ticket sender child state.bindings gap signal) :
    Answers law moment horizon engine starting
      (engine.receiveConjunction ticket state operands sender signal) := by
  cases signal with
  | failed restartable =>
      exact answers_finish_failed coherent live hears.ofOperand restartable
  | matched row isLast =>
      have starts := coherent.kept.starts_next live
      have nonempty : operands ≠ [] := by
        intro empty
        rw [empty] at atOperand
        cases atOperand
      have distinct : (operands.filterMap Conjunct.state).Nodup := by
        have nodup := coherent.kept.childrenNodup live
        rw [shape] at nodup
        exact nodup
      have yielded := forall₂_set (coherent.operandsYield live atNode shape nonempty) atChild
        ⟨if isLast then none else operand.state, some row⟩
        (fun found isFound => Option.some.inj isFound ▸ hears.of_matched.1)
      have changed := coherent.recordMatch live atNode shape atOperand isSender hears yielded
      have evolves := evolves_update engine ticket fun _ =>
        .conjunction (operands.set place ⟨if isLast then none else operand.state, some row⟩)
      simp only [receiveConjunction, record_eq_set distinct atOperand isSender]
      generalize operands.set place ⟨if isLast then none else operand.state, some row⟩ = recorded
        at changed evolves yielded ⊢
      split
      next complete =>
          refine (answers_finish_last changed (get?_update_self live _) (by simp) ?_
            (CompiledPattern.not_negation atNode (by simp))).of_evolves evolves
          refine law.yield_merge atNode starts ?_
          rw [List.all_eq_true] at complete
          refine forall₂_of_all yielded complete ?_
          intro number recorded yields isBound
          obtain ⟨found, isFound⟩ := Option.isSome_iff_exists.mp isBound
          exact ⟨found, isFound, yields found isFound⟩
      next => exact (answers_nothing changed).of_evolves evolves

end Several

end Engine

end EventQuery
