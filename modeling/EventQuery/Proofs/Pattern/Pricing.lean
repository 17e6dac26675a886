import EventQuery.Proofs.Pattern.NodeTable
import Mathlib.Algebra.Ring.Nat

namespace EventQuery

/-!
# Prices

Every task that an engine performs may lead to others.  A price for each node, paid for all tasks
that start at it, bounds how many there are.  A node that starts pays for starting its operands, and
a node that reports pays for what its parent does about that.  The operators that start their
operand again make this circular: a report pays for the next start, and a start may end in a report.
Only an operand that never reports while it starts can be paid for.
-/

namespace PatternNode

/-- The operands that a node starts when it starts itself. -/
def first : PatternNode → List Nat
  | .filter _ _ _ => []
  | .sequence left _ => [left]
  | node => node.children

/-- The operand that a node starts again and again. -/
def repeated : PatternNode → Option Nat
  | .every child => some child
  | .repetition child _ _ _ => some child
  | _ => none

end PatternNode

/-- What a node pays for: starting, reporting, and starting its operand again. -/
structure Price where
  start : Nat
  report : Nat
  again : Nat

namespace CompiledPattern

open PatternExpr

variable {compiled : CompiledPattern}

/-- A node that never reports while it starts: no negation starts with it. -/
inductive Silent (compiled : CompiledPattern) : Nat → Prop where
  | of_first {number : Nat} {node : PatternNode} :
      compiled.nodes[number]? = some node → (∀ child, node ≠ .negation child) →
        (∀ child ∈ node.first, Silent compiled child) → Silent compiled number

theorem Silent.of_mem_first
    {number child : Nat}
    {node : PatternNode}
    (silent : compiled.Silent number)
    (atNumber : compiled.nodes[number]? = some node)
    (member : child ∈ node.first) :
    compiled.Silent child := by
  cases silent with
  | of_first atSame _ first =>
      cases atNumber.symm.trans atSame
      exact first child member

theorem not_silent_negation
    {number child : Nat}
    (atNumber : compiled.nodes[number]? = some (.negation child)) :
    ¬compiled.Silent number := by
  rintro ⟨atSame, notNegation, _⟩
  cases atNumber.symm.trans atSame
  exact notNegation child rfl

/-- The prices of a node pay for the tasks that come next, one more for each of them. -/
def Fair (compiled : CompiledPattern) (prices : Nat → Price) (number : Nat) :
    PatternNode → Prop
  | .filter _ _ _ => True
  | .timer _ => True
  | .every child =>
      (prices child).start + 1 ≤ (prices number).start ∧
        (prices number).report + (prices number).again + 2 ≤ (prices child).report ∧
          (compiled.Silent child → (prices child).start + 1 ≤ (prices number).again)
  | .repetition child _ _ _ =>
      (prices child).start + 1 ≤ (prices number).start ∧
        (prices number).report + (prices number).again + 2 ≤ (prices child).report ∧
          (compiled.Silent child → (prices child).start + 1 ≤ (prices number).again)
  | .sequence left right =>
      (prices left).start + 1 ≤ (prices number).start ∧
        (prices number).report + 1 ≤ (prices right).report ∧
          (prices number).report + 1 ≤ (prices left).report ∧
            (prices right).start + 1 ≤ (prices left).report
  | .alternation children =>
      (children.map fun child => (prices child).start + 1).sum ≤ (prices number).start ∧
        ∀ child ∈ children, (prices number).report + 1 ≤ (prices child).report
  | .conjunction children =>
      (children.map fun child => (prices child).start + 1).sum ≤ (prices number).start ∧
        ∀ child ∈ children, (prices number).report + 1 ≤ (prices child).report
  | .negation child =>
      (prices child).start + (prices number).report + 3 ≤ (prices number).start ∧
        (prices number).report + 1 ≤ (prices child).report
  | .within child _ _ =>
      (prices child).start + 1 ≤ (prices number).start ∧
        (prices number).report + 1 ≤ (prices child).report
  | .guarded child _ =>
      (prices child).start + 1 ≤ (prices number).start ∧
        (prices number).report + 1 ≤ (prices child).report

/-- Only the prices of a node and of its operands matter to it. -/
theorem Fair.congr
    {prices others : Nat → Price}
    {number : Nat}
    {node : PatternNode}
    (fair : compiled.Fair prices number node)
    (same : others number = prices number)
    (sameChildren : ∀ child ∈ node.children, others child = prices child) :
    compiled.Fair others number node := by
  cases node with
  | filter _ _ _ => trivial
  | timer _ => trivial
  | alternation children =>
      obtain ⟨starts, reports⟩ := fair
      refine ⟨?_, fun child member => ?_⟩
      · rw [same, List.map_congr_left fun child member => by rw [sameChildren child member]]
        exact starts
      · rw [same, sameChildren child member]
        exact reports child member
  | conjunction children =>
      obtain ⟨starts, reports⟩ := fair
      refine ⟨?_, fun child member => ?_⟩
      · rw [same, List.map_congr_left fun child member => by rw [sameChildren child member]]
        exact starts
      · rw [same, sameChildren child member]
        exact reports child member
  | sequence left right =>
      simpa only [Fair, same, sameChildren left (by simp [PatternNode.children]),
        sameChildren right (by simp [PatternNode.children])] using fair
  | every child | repetition child _ _ _ | negation child | within child _ _ | guarded child _ =>
      simpa only [Fair, same, sameChildren child (by simp [PatternNode.children])] using fair

/-- The prices are fair for all nodes from a number on, up to another. -/
def FairBetween (compiled : CompiledPattern) (prices : Nat → Price) (lower upper : Nat) : Prop :=
  ∀ (number : Nat) (node : PatternNode), lower ≤ number → number < upper →
    compiled.nodes[number]? = some node → compiled.Fair prices number node

/-- The operands of the nodes between two numbers lie between these numbers as well. -/
def Encloses (compiled : CompiledPattern) (lower upper : Nat) : Prop :=
  ∀ (number operand : Nat), lower ≤ number → number < upper →
    compiled.IsOperand number operand → lower ≤ operand ∧ operand < upper

/-- A listed pattern encloses its operands. -/
theorem Listed.encloses
    {number : Nat}
    {expr : PatternExpr}
    (listed : Listed compiled number expr) :
    compiled.Encloses number (number + expr.size) := by
  intro place operand lower upper isOperand
  obtain ⟨behind, inside⟩ := listed.operand_range lower upper isOperand
  exact ⟨by omega, inside⟩

/-- Several listed patterns enclose their operands. -/
theorem AllListed.encloses
    {number : Nat}
    {children : List PatternExpr}
    (listed : AllListed compiled number children) :
    compiled.Encloses number (number + totalSize children) := by
  intro place operand lower upper isOperand
  obtain ⟨_, start, _, _, childListed, above, below, within⟩ :=
    listed.exists_child _ lower upper
  obtain ⟨behind, inside⟩ := childListed.operand_range above below isOperand
  exact ⟨by omega, by omega⟩

/-- Prices that agree between two numbers are fair there together. -/
theorem FairBetween.congr
    {prices : Nat → Price}
    {lower upper : Nat}
    (fair : compiled.FairBetween prices lower upper)
    (others : Nat → Price)
    (encloses : compiled.Encloses lower upper)
    (same : ∀ place, lower ≤ place → place < upper → others place = prices place) :
    compiled.FairBetween others lower upper := by
  intro place node above below atPlace
  refine (fair place node above below atPlace).congr (same place above below) fun child member => ?_
  obtain ⟨childAbove, childBelow⟩ := encloses place child above below ⟨node, atPlace, member⟩
  exact same child childAbove childBelow

/-- Prices up to a number and prices from there on. -/
def joined (middle : Nat) (prices others : Nat → Price) (number : Nat) : Price :=
  if number < middle then prices number else others number

theorem joined_of_lt
    {middle number : Nat}
    (below : number < middle)
    (prices others : Nat → Price) :
    joined middle prices others number = prices number :=
  if_pos below

theorem joined_of_le
    {middle number : Nat}
    (above : middle ≤ number)
    (prices others : Nat → Price) :
    joined middle prices others number = others number :=
  if_neg (Nat.not_lt.mpr above)

/-- Fair prices side by side are fair. -/
theorem FairBetween.join
    {prices others : Nat → Price}
    {lower middle upper : Nat}
    (fair : compiled.FairBetween prices lower middle)
    (fairOthers : compiled.FairBetween others middle upper)
    (encloses : compiled.Encloses lower middle)
    (enclosesOthers : compiled.Encloses middle upper) :
    compiled.FairBetween (joined middle prices others) lower upper := by
  have left := fair.congr (joined middle prices others) encloses
    fun place _ below => joined_of_lt below prices others
  have right := fairOthers.congr (joined middle prices others) enclosesOthers
    fun place above _ => joined_of_le above prices others
  intro place node above below atPlace
  by_cases inLeft : place < middle
  · exact left place node above inLeft atPlace
  · exact right place node (Nat.not_lt.mp inLeft) below atPlace

/--
The nodes between two numbers can be priced whatever the reports of some of them cost.  What these
cost to start depends on the cost of their reports only when one of them is not silent.
-/
def Payable (compiled : CompiledPattern) (lower upper : Nat) (numbers : List Nat) : Prop :=
  ∃ cost : Nat → Nat,
    ((∀ number ∈ numbers, compiled.Silent number) → ∀ report, cost report = cost 0) ∧
      ∀ report, ∃ prices : Nat → Price,
        compiled.FairBetween prices lower upper ∧
          (∀ number ∈ numbers, (prices number).report = report) ∧
            (numbers.map fun number => (prices number).start + 1).sum = cost report

/-- Several listed patterns can be priced together when each of them can. -/
theorem payable_operands
    {number : Nat}
    {children : List PatternExpr}
    (listed : AllListed compiled number children)
    (payable :
      ∀ child ∈ children, ∀ {start : Nat}, Listed compiled start child →
        compiled.Payable start (start + child.size) [start]) :
    compiled.Payable number (number + totalSize children) (numbersFrom number children) := by
  induction children generalizing number with
  | nil =>
      refine ⟨fun _ => 0, fun _ _ => rfl, fun report => ⟨fun _ => ⟨0, 0, 0⟩, ?_, ?_, rfl⟩⟩
      · intro place node lower upper
        rw [totalSize] at upper
        omega
      · simp [numbersFrom]
  | cons child rest inductionHypothesis =>
      rw [AllListed] at listed
      obtain ⟨childListed, restListed⟩ := listed
      obtain ⟨cost, constant, priced⟩ := payable child (by simp) childListed
      obtain ⟨restCost, restConstant, restPriced⟩ :=
        inductionHypothesis restListed fun other member => payable other (by simp [member])
      rw [numbersFrom, totalSize, ← Nat.add_assoc]
      refine ⟨fun report => cost report + restCost report, ?_, ?_⟩
      · intro silent report
        have here := constant (fun other member => silent other (by simp_all)) report
        have there := restConstant
          (fun other member => silent other (List.mem_cons_of_mem _ member)) report
        exact congrArg₂ (· + ·) here there
      · intro report
        obtain ⟨prices, fair, reports, starts⟩ := priced report
        obtain ⟨others, fairRest, reportsRest, startsRest⟩ := restPriced report
        have below : number < number + child.size := Nat.lt_add_of_pos_right child.size_pos
        have here := joined_of_lt below prices others
        have there : ∀ other ∈ numbersFrom (number + child.size) rest,
            joined (number + child.size) prices others other = others other :=
          fun other member => joined_of_le (le_of_mem_numbersFrom member) prices others
        refine ⟨_, fair.join fairRest childListed.encloses restListed.encloses, ?_, ?_⟩
        · intro other member
          rcases List.mem_cons.mp member with isFirst | inRest
          · rw [isFirst, here]
            exact reports number (by simp)
          · rw [there other inRest]
            exact reportsRest other inRest
        · rw [List.map_cons, List.sum_cons, here,
            List.map_congr_left fun other member => by rw [there other member], startsRest]
          exact congrArg (· + restCost report) starts

/-- A node is priced on top of its operands. -/
theorem FairBetween.crown
    {prices : Nat → Price}
    {number upper : Nat}
    {node : PatternNode}
    (fair : compiled.FairBetween prices (number + 1) upper)
    (encloses : compiled.Encloses (number + 1) upper)
    (atNumber : compiled.nodes[number]? = some node)
    {price : Price}
    (fairHere : compiled.Fair (Function.update prices number price) number node) :
    compiled.FairBetween (Function.update prices number price) number upper := by
  have above := fair.congr (Function.update prices number price) encloses
    fun place behind _ => Function.update_of_ne (by omega) price prices
  intro place other lower below atPlace
  by_cases isHere : place = number
  · subst isHere
    cases atNumber.symm.trans atPlace
    exact fairHere
  · exact above place other (by omega) below atPlace

/-- A node can be priced when its operands can, given its price on top of theirs. -/
theorem Payable.crown
    {number upper : Nat}
    {node : PatternNode}
    (cost : Nat → Nat)
    (constant : compiled.Silent number → ∀ report, cost report = cost 0)
    (encloses : compiled.Encloses (number + 1) upper)
    (atNumber : compiled.nodes[number]? = some node)
    (priced :
      ∀ report, ∃ (prices : Nat → Price) (again : Nat),
        compiled.FairBetween prices (number + 1) upper ∧
          compiled.Fair (Function.update prices number ⟨cost report, report, again⟩) number
            node) :
    compiled.Payable number upper [number] := by
  refine ⟨fun report => cost report + 1, ?_, ?_⟩
  · intro silent report
    exact congrArg (· + 1) (constant (silent number (by simp)) report)
  · intro report
    obtain ⟨prices, again, fair, fairHere⟩ := priced report
    refine ⟨_, fair.crown encloses atNumber fairHere, ?_, by simp⟩
    intro other member
    rw [List.mem_singleton.mp member, Function.update_self]

section Operator

variable {number upper : Nat} {node : PatternNode}

private theorem silent_singleton
    {child : Nat}
    (silent : compiled.Silent number)
    (atNumber : compiled.nodes[number]? = some node)
    (first : node.first = [child]) :
    ∀ other ∈ [child], compiled.Silent other := by
  intro other member
  exact silent.of_mem_first atNumber (first ▸ member)

private theorem payable_passing
    (payable : compiled.Payable (number + 1) upper [number + 1])
    (encloses : compiled.Encloses (number + 1) upper)
    (atNumber : compiled.nodes[number]? = some node)
    (isPassing :
      (∃ duration absence, node = .within (number + 1) duration absence) ∨
        ∃ guard, node = .guarded (number + 1) guard) :
    compiled.Payable number upper [number] := by
  obtain ⟨cost, constant, priced⟩ := payable
  have first : node.first = [number + 1] := by
    rcases isPassing with ⟨_, _, rfl⟩ | ⟨_, rfl⟩ <;> rfl
  refine .crown (fun report => cost (report + 1)) ?_ encloses atNumber fun report => ?_
  · intro silent report
    have same := constant (silent_singleton silent atNumber first)
    exact (same (report + 1)).trans (same 1).symm
  · obtain ⟨prices, fair, reports, starts⟩ := priced (report + 1)
    simp only [List.mem_singleton, forall_eq, List.map_cons, List.map_nil, List.sum_cons,
      List.sum_nil, Nat.add_zero] at reports starts
    refine ⟨prices, 0, fair, ?_⟩
    rcases isPassing with ⟨_, _, rfl⟩ | ⟨_, rfl⟩
    · simp [Fair, reports, starts]
    · simp [Fair, reports, starts]

private theorem payable_repeating
    (payable : compiled.Payable (number + 1) upper [number + 1])
    (encloses : compiled.Encloses (number + 1) upper)
    (atNumber : compiled.nodes[number]? = some node)
    (isRepeating :
      node = .every (number + 1) ∨
        ∃ least most innerSlots, node = .repetition (number + 1) least most innerSlots) :
    compiled.Payable number upper [number] := by
  obtain ⟨cost, constant, priced⟩ := payable
  have first : node.first = [number + 1] := by
    rcases isRepeating with rfl | ⟨_, _, _, rfl⟩ <;> rfl
  refine .crown (fun report => cost (report + cost 0 + 2)) ?_ encloses atNumber fun report => ?_
  · intro silent report
    have same := constant (silent_singleton silent atNumber first)
    exact (same _).trans (same _).symm
  · obtain ⟨prices, fair, reports, starts⟩ := priced (report + cost 0 + 2)
    simp only [List.mem_singleton, forall_eq, List.map_cons, List.map_nil, List.sum_cons,
      List.sum_nil, Nat.add_zero] at reports starts
    -- A silent operand costs the same to start whatever its reports cost.
    have again : compiled.Silent (number + 1) → (prices (number + 1)).start + 1 ≤ cost 0 := by
      intro silent
      rw [starts]
      exact Nat.le_of_eq (constant (by simpa using silent) _)
    refine ⟨prices, cost 0, fair, ?_⟩
    rcases isRepeating with rfl | ⟨_, _, _, rfl⟩
    · simpa [Fair, reports, starts] using again
    · simpa [Fair, reports, starts] using again

private theorem payable_branching
    {children : List Nat}
    (payable : compiled.Payable (number + 1) upper children)
    (encloses : compiled.Encloses (number + 1) upper)
    (behind : number ∉ children)
    (atNumber : compiled.nodes[number]? = some node)
    (isBranching : node = .alternation children ∨ node = .conjunction children) :
    compiled.Payable number upper [number] := by
  obtain ⟨cost, constant, priced⟩ := payable
  have first : node.first = children := by
    rcases isBranching with rfl | rfl <;> rfl
  refine .crown (fun report => cost (report + 1)) ?_ encloses atNumber fun report => ?_
  · intro silent report
    have same := constant fun other member => silent.of_mem_first atNumber (first ▸ member)
    exact (same _).trans (same _).symm
  · obtain ⟨prices, fair, reports, starts⟩ := priced (report + 1)
    have apart : ∀ child ∈ children,
        Function.update prices number ⟨cost (report + 1), report, 0⟩ child = prices child := by
      intro child member
      refine Function.update_of_ne ?_ _ _
      rintro rfl
      exact behind member
    have sums : (children.map fun child =>
        (Function.update prices number ⟨cost (report + 1), report, 0⟩ child).start + 1).sum =
          cost (report + 1) := by
      rw [List.map_congr_left fun child member => by rw [apart child member], starts]
    have told : ∀ child ∈ children, report + 1 ≤
        (Function.update prices number ⟨cost (report + 1), report, 0⟩ child).report := by
      intro child member
      rw [apart child member]
      exact Nat.le_of_eq (reports child member).symm
    refine ⟨prices, 0, fair, ?_⟩
    rcases isBranching with rfl | rfl
    · simp only [Fair, Function.update_self]
      exact ⟨Nat.le_of_eq sums, told⟩
    · simp only [Fair, Function.update_self]
      exact ⟨Nat.le_of_eq sums, told⟩

/-- A negation can be priced when its operand can. -/
private theorem payable_negation
    (payable : compiled.Payable (number + 1) upper [number + 1])
    (encloses : compiled.Encloses (number + 1) upper)
    (atNumber : compiled.nodes[number]? = some (.negation (number + 1))) :
    compiled.Payable number upper [number] := by
  obtain ⟨cost, _, priced⟩ := payable
  refine .crown (fun report => cost (report + 1) + report + 2)
    (fun silent => absurd silent (not_silent_negation atNumber)) encloses atNumber
      fun report => ?_
  obtain ⟨prices, fair, reports, starts⟩ := priced (report + 1)
  simp only [List.mem_singleton, forall_eq, List.map_cons, List.map_nil, List.sum_cons,
    List.sum_nil, Nat.add_zero] at reports starts
  refine ⟨prices, 0, fair, ?_⟩
  simp [Fair, reports]
  omega

/-- A sequence can be priced when its operands can: the left one pays for the right one. -/
private theorem payable_sequence
    {middle : Nat}
    (payableLeft : compiled.Payable (number + 1) middle [number + 1])
    (payableRight : compiled.Payable middle upper [middle])
    (enclosesLeft : compiled.Encloses (number + 1) middle)
    (enclosesRight : compiled.Encloses middle upper)
    (nonempty : number + 1 < middle)
    (wide : middle ≤ upper)
    (atNumber : compiled.nodes[number]? = some (.sequence (number + 1) middle)) :
    compiled.Payable number upper [number] := by
  obtain ⟨cost, constant, priced⟩ := payableLeft
  obtain ⟨costRight, _, pricedRight⟩ := payableRight
  have encloses : compiled.Encloses (number + 1) upper := by
    intro place operand lower below isOperand
    by_cases inLeft : place < middle
    · have inside := enclosesLeft place operand lower inLeft isOperand
      exact ⟨inside.1, by omega⟩
    · have inside := enclosesRight place operand (by omega) below isOperand
      exact ⟨by omega, inside.2⟩
  refine .crown (fun report => cost (report + costRight (report + 1) + 1)) ?_ encloses atNumber
    fun report => ?_
  · intro silent report
    have same := constant (silent_singleton silent atNumber rfl)
    exact (same _).trans (same _).symm
  · obtain ⟨prices, fair, reports, starts⟩ := priced (report + costRight (report + 1) + 1)
    obtain ⟨others, fairRight, reportsRight, startsRight⟩ := pricedRight (report + 1)
    simp only [List.mem_singleton, forall_eq, List.map_cons, List.map_nil, List.sum_cons,
      List.sum_nil, Nat.add_zero] at reports starts reportsRight startsRight
    have left := joined_of_lt nonempty prices others
    have right := joined_of_le (Nat.le_refl middle) prices others
    have apart : middle ≠ number := by omega
    refine ⟨_, 0, fair.join fairRight enclosesLeft enclosesRight, ?_⟩
    simp [Fair, left, right, reports, starts, reportsRight, startsRight, apart]
    omega

end Operator

/-- Every listed pattern can be priced. -/
theorem Listed.payable
    {expr : PatternExpr}
    {number : Nat}
    (listed : Listed compiled number expr) :
    compiled.Payable number (number + expr.size) [number] := by
  induction expr using operandInduction generalizing number with
  | step expr inductionHypothesis =>
      have operands := payable_operands listed.operands fun child member _ =>
        inductionHypothesis child member
      have encloses := listed.operands.encloses
      have size : number + 1 + totalSize expr.operands = number + expr.size := by
        rw [expr.size_eq]
        omega
      rw [size] at operands encloses
      have leaf : expr.operands = [] → ∀ {node : PatternNode},
          compiled.nodes[number]? = some node →
            (∀ prices : Nat → Price, compiled.Fair prices number node) →
              compiled.Payable number (number + expr.size) [number] := by
        intro none node atNumber fair
        refine .crown (fun _ => 0) (fun _ _ => rfl) encloses atNumber fun report => ?_
        refine ⟨fun _ => ⟨0, 0, 0⟩, 0, ?_, fair _⟩
        intro place other above below
        rw [expr.size_eq, none, totalSize] at below
        omega
      have behind : number ∉ numbersFrom (number + 1) expr.operands := by
        intro member
        exact Nat.lt_irrefl number (le_of_mem_numbersFrom member)
      cases expr <;> rw [Listed] at listed
      case filter spec =>
          exact leaf rfl listed.choose_spec fun _ => trivial
      case timer duration =>
          exact leaf rfl listed fun _ => trivial
      case every child =>
          exact payable_repeating operands encloses listed.1 (.inl rfl)
      case repetition child least most =>
          exact payable_repeating operands encloses listed.1 (.inr ⟨_, _, _, rfl⟩)
      case alternation children =>
          exact payable_branching operands encloses behind listed.2.1 (.inl rfl)
      case conjunction children =>
          exact payable_branching operands encloses behind listed.2.1 (.inr rfl)
      case negation child =>
          exact payable_negation operands encloses listed.1
      case within child duration =>
          exact payable_passing operands encloses listed.1 (.inl ⟨_, _, rfl⟩)
      case guarded child guard =>
          obtain ⟨⟨bound, atNumber⟩, _⟩ := listed
          exact payable_passing operands encloses atNumber (.inr ⟨bound, rfl⟩)
      case sequence left right =>
          obtain ⟨atNumber, leftListed, rightListed⟩ := listed
          have positive := left.size_pos
          have end_ : number + 1 + left.size + right.size =
              number + (PatternExpr.sequence left right).size := by
            rw [← size]
            simp [PatternExpr.operands, totalSize]
            omega
          rw [← end_]
          exact payable_sequence
            (inductionHypothesis left (by simp [PatternExpr.operands]) leftListed)
            (inductionHypothesis right (by simp [PatternExpr.operands]) rightListed)
            leftListed.encloses rightListed.encloses (by omega) (by omega) atNumber

/-- The prices are fair for all nodes. -/
def AllFair (compiled : CompiledPattern) (prices : Nat → Price) : Prop :=
  ∀ (number : Nat) (node : PatternNode),
    compiled.nodes[number]? = some node → compiled.Fair prices number node

/-- Every compiled pattern has fair prices. -/
theorem exists_allFair
    {schema : Schema}
    {expr : PatternExpr}
    (success : compile schema expr = .ok compiled) :
    ∃ prices : Nat → Price, compiled.AllFair prices := by
  obtain ⟨listed, length⟩ := listed_of_compile success
  obtain ⟨_, _, priced⟩ := listed.payable
  obtain ⟨prices, fair, _⟩ := priced 0
  refine ⟨prices, fun number node atNumber => fair number node (Nat.zero_le _) ?_ atNumber⟩
  rw [Nat.zero_add, ← length]
  exact (List.getElem?_eq_some_iff.mp atNumber).1

end CompiledPattern

end EventQuery
