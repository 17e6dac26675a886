import EventQuery.Proofs.Pattern.Restarting
import EventQuery.Proofs.Pattern.RightSide

namespace EventQuery

namespace Engine

open CompiledPattern

/-!
# Families of states

The live states of an engine hang together by their parents, along the operators of the pattern.  No
two operands of one state run the same node, right operands of sequences apart, and so a node that
stands on no right side is run by one state at a time.
-/

section Parents

variable {compiled : CompiledPattern} {law : RowLaw compiled} {moment horizon : Nat}
  {engine : Engine} {starting : List Ticket} {gap : Option (Ticket × PatternState)}
  {ticket parent : Ticket} {state owner : PatternState}

/-- The parent of a live state is live, and runs the operator of its node. -/
theorem Coherent.exists_owner
    (coherent : engine.Coherent law moment horizon starting gap [])
    (live : engine.states.get? ticket = some state)
    (hasParent : state.parent = some parent) :
    parent ≠ ticket ∧ ∃ owner, engine.states.get? parent = some owner ∧
      compiled.IsOperand owner.node state.node ∧ ticket ∈ owner.progress.children := by
  obtain ⟨owner, node, ownerLive, atNode, adopts, order⟩ :=
    coherent.linked.adopted (.inl live) (by simp) hasParent
  refine ⟨?_, owner, ownerLive, ⟨node, atNode, adopts.mem_operands⟩, adopts.mem_children⟩
  rintro rfl
  cases live.symm.trans ownerLive
  exact Nat.lt_irrefl _ order

/-- The left operand of a sequence runs its left node. -/
theorem Coherent.node_of_left
    {left right : Nat}
    {rights : List Ticket}
    (coherent : engine.Coherent law moment horizon starting gap [])
    (live : engine.states.get? ticket = some state)
    (hasParent : state.parent = some parent)
    (ownerLive : engine.states.get? parent = some owner)
    (atNode : compiled.nodes[owner.node]? = some (.sequence left right))
    (shape : owner.progress = .sequence (some ticket) rights) :
    state.node = left := by
  obtain ⟨other, node, otherLive, atOther, adopts, _⟩ :=
    coherent.linked.adopted (.inl live) (by simp) hasParent
  cases ownerLive.symm.trans otherLive
  cases atNode.symm.trans atOther
  have distinct := coherent.kept.childrenNodup ownerLive
  rw [shape] at adopts distinct
  generalize state.node = child, state.bindings = row at adopts ⊢
  cases adopts with
  | left => rfl
  | right member _ =>
      exact absurd rfl ((List.nodup_append.mp distinct).2.2 ticket (by simp) ticket member)

/-- A state whose node is an operand has a parent that runs the operator. -/
theorem Coherent.exists_parent
    {number : Nat}
    (table : compiled.Sound)
    (coherent : engine.Coherent law moment horizon starting gap [])
    (live : engine.states.get? ticket = some state)
    (isOperand : compiled.IsOperand number state.node) :
    ∃ parent owner, state.parent = some parent ∧ engine.states.get? parent = some owner ∧
      owner.node = number ∧ ticket ∈ owner.progress.children := by
  cases hasParent : state.parent with
  | none =>
      have isRoot := (coherent.linked.top (.inl live) (by simp) hasParent).2.1
      have behind := (table.operandRange isOperand).1
      rw [isRoot] at behind
      exact absurd behind (Nat.not_lt_zero _)
  | some parent =>
      obtain ⟨_, owner, ownerLive, isOwned, listed⟩ := coherent.exists_owner live hasParent
      exact ⟨parent, owner, rfl, ownerLive, table.operatorUnique isOwned isOperand, listed⟩

/-- Above a live state there is a live state for each node above its node. -/
theorem Coherent.exists_above
    {number other : Nat}
    (table : compiled.Sound)
    (coherent : engine.Coherent law moment horizon starting gap [])
    (below : compiled.Below number other)
    (live : engine.states.get? ticket = some state)
    (isNode : state.node = other) :
    ∃ above upper, engine.states.get? above = some upper ∧ upper.node = number := by
  induction below generalizing ticket state with
  | refl => exact ⟨ticket, state, live, isNode⟩
  | operand _ isOperand inductionHypothesis =>
      subst isNode
      obtain ⟨parent, owner, _, ownerLive, sameNode, _⟩ :=
        coherent.exists_parent table live isOperand
      exact inductionHypothesis ownerLive sameNode

end Parents

/-- No two operands of one state run the same node, right operands of sequences apart. -/
def Siblings (compiled : CompiledPattern) (engine : Engine) : Prop :=
  ∀ {first second parent : Ticket} {state other : PatternState},
    engine.states.get? first = some state → engine.states.get? second = some other →
      state.parent = some parent → other.parent = some parent → state.node = other.node →
        ¬compiled.IsRight state.node → first = second

section Siblings

variable {compiled : CompiledPattern} {law : RowLaw compiled} {moment horizon : Nat}
  {engine : Engine} {starting : List Ticket} {gap : Option (Ticket × PatternState)}

/-- What stands on no right side is run by one state at a time. -/
theorem Coherent.unique
    {number : Nat}
    {first second : Ticket}
    {state other : PatternState}
    (table : compiled.Sound)
    (coherent : engine.Coherent law moment horizon starting gap [])
    (siblings : Siblings compiled engine)
    (early : ¬compiled.OnRight number)
    (firstLive : engine.states.get? first = some state)
    (secondLive : engine.states.get? second = some other)
    (isFirst : state.node = number)
    (isSecond : other.node = number) :
    first = second := by
  induction number using Nat.strongRecOn generalizing first second state other with
  | ind number inductionHypothesis =>
      by_cases isTop : ∃ operator, compiled.IsOperand operator number
      · obtain ⟨operator, isOperand⟩ := isTop
        obtain ⟨parent, owner, hasParent, ownerLive, ownerNode, _⟩ :=
          coherent.exists_parent table firstLive (isFirst ▸ isOperand)
        obtain ⟨otherParent, otherOwner, hasOther, otherLive, otherNode, _⟩ :=
          coherent.exists_parent table secondLive (isSecond ▸ isOperand)
        have sameParent : parent = otherParent :=
          inductionHypothesis operator (table.operandRange isOperand).1
            (fun onRight => early (onRight.below isOperand.below)) ownerLive otherLive ownerNode
            otherNode
        subst sameParent
        refine siblings firstLive secondLive hasParent hasOther (isFirst.trans isSecond.symm) ?_
        rw [isFirst]
        exact fun isRight => early ⟨number, isRight, .refl⟩
      · have noParent : ∀ {ticket : Ticket} {state : PatternState},
            engine.states.get? ticket = some state → state.node = number →
              state.parent = none := by
          intro ticket state live isNode
          cases hasParent : state.parent with
          | none => rfl
          | some parent =>
              obtain ⟨_, owner, _, isOwned, _⟩ := coherent.exists_owner live hasParent
              exact absurd ⟨owner.node, isNode ▸ isOwned⟩ isTop
        have rootOf : ∀ {ticket : Ticket} {state : PatternState},
            engine.states.get? ticket = some state → state.node = number →
              engine.root = some ticket := fun live isNode =>
          (coherent.linked.top (.inl live) (by simp) (noParent live isNode)).1
        exact Option.some.inj
          ((rootOf firstLive isFirst).symm.trans (rootOf secondLive isSecond))

/-- Nothing runs below an operand of a state that has none, unless on a right side. -/
theorem Coherent.not_below_of_childless
    {ticket found : Ticket}
    {owner state : PatternState}
    {operand : Nat}
    (table : compiled.Sound)
    (coherent : engine.Coherent law moment horizon starting gap [])
    (siblings : Siblings compiled engine)
    (ownerLive : engine.states.get? ticket = some owner)
    (early : ¬compiled.OnRight owner.node)
    (childless : owner.progress.children = [])
    (isOperand : compiled.IsOperand owner.node operand)
    (live : engine.states.get? found = some state) :
    ¬compiled.Below operand state.node := by
  intro below
  obtain ⟨child, held, childLive, isChild⟩ := coherent.exists_above table below live rfl
  obtain ⟨parent, other, _, otherLive, sameNode, listed⟩ :=
    coherent.exists_parent table childLive (isChild ▸ isOperand)
  cases coherent.unique table siblings early otherLive ownerLive sameNode rfl
  cases otherLive.symm.trans ownerLive
  rw [childless] at listed
  cases listed

/-- The operands of a state still run different nodes after a task. -/
theorem Outcome.siblings
    {task : Task}
    {answer : Engine × List Task}
    (outcome : Outcome compiled engine task answer)
    (coherent : engine.Coherent law moment horizon starting gap [])
    (siblings : Siblings compiled engine) :
    Siblings compiled answer.1 := by
  intro first second parent state other firstLive secondLive hasParent hasOther sameNode notRight
  -- A state that was there has the node and the parent that it had.
  have was : ∀ {ticket : Ticket} {state : PatternState}, engine.states.Issued ticket →
      answer.1.states.get? ticket = some state → state.parent = some parent →
        ∃ earlier, engine.states.get? ticket = some earlier ∧ state.node = earlier.node ∧
          earlier.parent = some parent := by
    intro ticket state issued live hasParent
    obtain ⟨earlier, wasLive, sameNode, sameParent, _⟩ := outcome.evolves.same issued live
    exact ⟨earlier, wasLive, sameNode, sameParent ▸ hasParent⟩
  have old : engine.states.Issued first → engine.states.Issued second → first = second := by
    intro firstIssued secondIssued
    obtain ⟨_, wasFirst, firstNode, firstParent⟩ := was firstIssued firstLive hasParent
    obtain ⟨_, wasSecond, secondNode, secondParent⟩ := was secondIssued secondLive hasOther
    exact siblings wasFirst wasSecond firstParent secondParent
      (firstNode.symm.trans (sameNode.trans secondNode)) (firstNode ▸ notRight)
  cases outcome with
  | concluded sameStates =>
      rw [sameStates] at firstLive secondLive
      exact old (.inl ⟨_, firstLive⟩) (.inl ⟨_, secondLive⟩)
  | rested _ barren _ _ _ => exact old (barren.issued firstLive) (barren.issued secondLive)
  | heard _ _ barren _ _ _ => exact old (barren.issued firstLive) (barren.issued secondLive)
  | continued _ atNode _ _ _ _ birthLive isRight _ _ known =>
      rcases known firstLive with firstIssued | rfl
      · rcases known secondLive with secondIssued | rfl
        · exact old firstIssued secondIssued
        · cases birthLive.symm.trans secondLive
          exact absurd ⟨_, _, sameNode ▸ isRight ▸ atNode⟩ notRight
      · cases birthLive.symm.trans firstLive
        exact absurd ⟨_, _, isRight ▸ atNode⟩ notRight
  | @opened _ _ _ births _ _ after _ _ _ opens _ _ =>
      -- The owner had no operands before.
      have apart : ∀ {birth ticket : Ticket} {born found : PatternState}, birth ∈ births →
          after.states.get? birth = some born → born.parent = some parent →
            engine.states.Issued ticket → after.states.get? ticket = some found →
              ¬found.parent = some parent := by
        intro birth ticket born found member bornLive bornParent issued live hasParent
        obtain ⟨_, same, sameLive, isOwner, _⟩ := opens.born birth member
        cases bornLive.symm.trans sameLive
        cases bornParent.symm.trans isOwner
        obtain ⟨_, wasLive, _, wasParent⟩ := was issued live hasParent
        obtain ⟨_, owner, ownerLive, _, listed⟩ := coherent.exists_owner wasLive wasParent
        cases ownerLive.symm.trans opens.live
        rw [opens.childless] at listed
        cases listed
      rcases opens.known firstLive with firstIssued | isFirst
      · rcases opens.known secondLive with secondIssued | isSecond
        · exact old firstIssued secondIssued
        · exact absurd hasParent (apart isSecond secondLive hasOther firstIssued firstLive)
      · rcases opens.known secondLive with secondIssued | isSecond
        · exact absurd hasOther (apart isFirst firstLive hasParent secondIssued secondLive)
        · exact opens.apart isFirst isSecond firstLive secondLive sameNode

end Siblings

end Engine

end EventQuery
