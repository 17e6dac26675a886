import EventQuery.Proofs.Pattern.Repeating

namespace EventQuery

/-!
# Right sides of sequences

The right operand of a sequence starts once for each match of the left one, so that many states may
run it at a time.  What stands on no right side is run by one state at most.  On a right side a
pattern under `every` or in a repetition starts over without asking how many states run already; this
module says when what starts over there is never more than one filter or timer.
-/

namespace PatternExpr

/-- Filters and timers have no operands. -/
def isLeaf : PatternExpr → Bool
  | .filter _ => true
  | .timer _ => true
  | _ => false

mutual

/--
Whether `every` and repetitions on the right sides of sequences stand directly over filters and
timers.  It is told whether the pattern itself stands on a right side.
-/
def restartsLeaves (onRight : Bool) : PatternExpr → Bool
  | .filter _ => true
  | .every child => (!onRight || child.isLeaf) && restartsLeaves onRight child
  | .sequence left right => restartsLeaves onRight left && restartsLeaves true right
  | .alternation children => allRestartLeaves onRight children
  | .conjunction children => allRestartLeaves onRight children
  | .repetition child _ _ => (!onRight || child.isLeaf) && restartsLeaves onRight child
  | .negation child => restartsLeaves onRight child
  | .within child _ => restartsLeaves onRight child
  | .guarded child _ => restartsLeaves onRight child
  | .timer _ => true

/-- Whether this holds of each of several patterns. -/
def allRestartLeaves (onRight : Bool) : List PatternExpr → Bool
  | [] => true
  | child :: rest => restartsLeaves onRight child && allRestartLeaves onRight rest

end

theorem restartsLeaves_of_mem
    {onRight : Bool}
    {children : List PatternExpr}
    (restarts : allRestartLeaves onRight children = true)
    {child : PatternExpr}
    (member : child ∈ children) :
    child.restartsLeaves onRight = true := by
  induction children with
  | nil => cases member
  | cons first rest inductionHypothesis =>
      rw [allRestartLeaves, Bool.and_eq_true] at restarts
      rcases List.mem_cons.mp member with isFirst | inRest
      · exact isFirst ▸ restarts.1
      · exact inductionHypothesis restarts.2 inRest

/-- An operand stands on a right side when its operator does, and maybe also otherwise. -/
theorem restartsLeaves_operand
    {onRight : Bool}
    {expr child : PatternExpr}
    (restarts : expr.restartsLeaves onRight = true)
    (member : child ∈ expr.operands) :
    ∃ side, child.restartsLeaves side = true ∧ (onRight = true → side = true) := by
  cases expr <;> rw [restartsLeaves] at restarts
  case sequence left right =>
      rw [Bool.and_eq_true] at restarts
      rcases List.mem_cons.mp member with isLeft | isRight
      · exact ⟨onRight, isLeft ▸ restarts.1, id⟩
      · exact ⟨true, List.mem_singleton.mp isRight ▸ restarts.2, fun _ => rfl⟩
  case alternation children => exact ⟨onRight, restartsLeaves_of_mem restarts member, id⟩
  case conjunction children => exact ⟨onRight, restartsLeaves_of_mem restarts member, id⟩
  case every child =>
      rw [Bool.and_eq_true] at restarts
      exact ⟨onRight, List.mem_singleton.mp member ▸ restarts.2, id⟩
  case repetition child least most =>
      rw [Bool.and_eq_true] at restarts
      exact ⟨onRight, List.mem_singleton.mp member ▸ restarts.2, id⟩
  case filter spec => cases member
  case timer duration => cases member
  all_goals exact ⟨onRight, List.mem_singleton.mp member ▸ restarts, id⟩

end PatternExpr

namespace CompiledPattern

variable {compiled : CompiledPattern} {number operand other right child : Nat}

/-- A node stands on the right side of a sequence. -/
def OnRight (compiled : CompiledPattern) (number : Nat) : Prop :=
  ∃ right, compiled.IsRight right ∧ compiled.Below right number

/-- One node stands on the left side of a sequence and another on its right side. -/
def LeftOf (compiled : CompiledPattern) (number other : Nat) : Prop :=
  ∃ top left right : Nat, compiled.nodes[top]? = some (.sequence left right) ∧
    compiled.Below left number ∧ compiled.Below right other

/-- On right sides only filters and timers start over and over. -/
def RestartsLeaves (compiled : CompiledPattern) : Prop :=
  ∀ {number child : Nat}, compiled.OnRight number → compiled.Repeats number child →
    compiled.IsLeaf child

/-- What starts an operand over and over has no other operand. -/
theorem Repeats.unique
    (repeats : compiled.Repeats number child)
    (isOperand : compiled.IsOperand number operand) :
    operand = child := by
  obtain ⟨node, atNumber, isRepeated⟩ := Option.bind_eq_some_iff.mp repeats
  obtain ⟨same, atSame, member⟩ := isOperand
  cases atNumber.symm.trans atSame
  cases node <;> cases isRepeated <;> exact List.mem_singleton.mp member

/-- A leaf starts nothing. -/
theorem IsLeaf.not_operand
    (isLeaf : compiled.IsLeaf number) :
    ¬compiled.IsOperand number operand := by
  rintro ⟨node, atNumber, member⟩
  obtain ⟨leaf, atLeaf, isLeaf⟩ := isLeaf
  cases atNumber.symm.trans atLeaf
  cases node <;> cases isLeaf <;> cases member

/-- Nothing else is below a leaf. -/
theorem IsLeaf.eq_of_below
    (isLeaf : compiled.IsLeaf number)
    (below : compiled.Below number other) :
    other = number := by
  rcases below.eq_or_exists_operand with same | ⟨operand, isOperand, _⟩
  · exact same.symm
  · exact absurd isOperand isLeaf.not_operand

/-- What is below a node on a right side is on that side. -/
theorem OnRight.below
    (onRight : compiled.OnRight number)
    (below : compiled.Below number other) :
    compiled.OnRight other := by
  obtain ⟨right, isRight, above⟩ := onRight
  exact ⟨right, isRight, above.trans below⟩

/-- An operand that is no right operand stands on a right side with its operator. -/
theorem OnRight.toOperator
    (table : compiled.Sound)
    (onRight : compiled.OnRight operand)
    (isOperand : compiled.IsOperand number operand)
    (notRight : ¬compiled.IsRight operand) :
    compiled.OnRight number := by
  obtain ⟨right, isRight, below⟩ := onRight
  rcases below.eq_or_below table isOperand with same | above
  · exact absurd (same ▸ isRight) notRight
  · exact ⟨right, isRight, above⟩

/-! ## Waiting nodes -/

/--
One node may wait while another works: it does not hold the other, and the work completes no left
side of a sequence that has it on the right.
-/
structure MayWait (compiled : CompiledPattern) (working waiting : Nat) : Prop where
  notRight : ¬compiled.LeftOf working waiting
  notAbove : ¬compiled.Below waiting working

/-- One node may wait while another works that does not hold it either. -/
structure Beside (compiled : CompiledPattern) (working waiting : Nat) : Prop
    extends compiled.MayWait working waiting where
  notBelow : ¬compiled.Below working waiting

/-- Nothing is below both sides of a sequence. -/
theorem not_below_sides
    (table : compiled.Sound)
    {top left : Nat}
    (atTop : compiled.nodes[top]? = some (.sequence left right))
    (ofLeft : compiled.Below left number) :
    ¬compiled.Below right number :=
  IsOperand.apart table ⟨_, atTop, by simp [PatternNode.children]⟩
    ⟨_, atTop, by simp [PatternNode.children]⟩ (left_ne_right table atTop) ofLeft

/-- What stands on the left of a node because of an operator of it stands there by itself. -/
theorem LeftOf.toOperator
    (table : compiled.Sound)
    (leftOf : compiled.LeftOf operand other)
    (isOperand : compiled.IsOperand number operand) :
    compiled.LeftOf number other ∨
      ∃ right, compiled.nodes[number]? = some (.sequence operand right) ∧
        compiled.Below right other := by
  obtain ⟨top, left, right, atTop, above, below⟩ := leftOf
  rcases above.eq_or_below table isOperand with same | aboveOperator
  · subst same
    have same := table.operatorUnique ⟨_, atTop, by simp [PatternNode.children]⟩ isOperand
    exact .inr ⟨right, same ▸ atTop, below⟩
  · exact .inl ⟨top, left, right, atTop, aboveOperator, below⟩

/-- What waits for an operand waits for its operator. -/
theorem MayWait.toOperator
    (mayWait : compiled.MayWait operand other)
    (isOperand : compiled.IsOperand number operand) :
    compiled.MayWait number other where
  notRight := by
    rintro ⟨top, left, right, atTop, above, below⟩
    exact mayWait.notRight ⟨top, left, right, atTop, .operand above isOperand, below⟩
  notAbove := fun above => mayWait.notAbove (.operand above isOperand)

/-- Nothing on the right side of a sequence waits for the left one. -/
theorem MayWait.not_below_right
    {left : Nat}
    (mayWait : compiled.MayWait left other)
    (atNumber : compiled.nodes[number]? = some (.sequence left right)) :
    ¬compiled.Below right other :=
  fun below => mayWait.notRight ⟨number, left, right, atNumber, .refl, below⟩

/-- A node may wait while its operator works. -/
theorem mayWait_operand
    (table : compiled.Sound)
    (isOperand : compiled.IsOperand number operand) :
    compiled.MayWait number operand where
  notRight := by
    rintro ⟨top, left, right, atTop, above, below⟩
    exact not_below_sides table atTop (above.trans isOperand.below) below
  notAbove := isOperand.not_below table

/-- What waits while a sequence works waits for its right side, unless it stands there. -/
theorem MayWait.beside_right
    (table : compiled.Sound)
    {left : Nat}
    (mayWait : compiled.MayWait number other)
    (atNumber : compiled.nodes[number]? = some (.sequence left right))
    (outside : ¬compiled.Below right other) :
    compiled.Beside right other := by
  have isOperand : compiled.IsOperand number right := ⟨_, atNumber, by simp [PatternNode.children]⟩
  refine ⟨⟨fun leftOf => ?_, fun above => ?_⟩, outside⟩
  · rcases leftOf.toOperator table isOperand with ofNumber | ⟨_, atSame, _⟩
    · exact mayWait.notRight ofNumber
    · cases atNumber.symm.trans atSame
      exact left_ne_right table atNumber rfl
  · rcases above.eq_or_below table isOperand with rfl | aboveNumber
    · exact outside .refl
    · exact mayWait.notAbove aboveNumber

/-- What is beside a node is beside its operands. -/
theorem Beside.of_operand
    (table : compiled.Sound)
    (beside : compiled.Beside number other)
    (isOperand : compiled.IsOperand number operand) :
    compiled.Beside operand other := by
  refine ⟨⟨fun leftOf => ?_, fun above => ?_⟩, fun below =>
    beside.notBelow (isOperand.below.trans below)⟩
  · rcases leftOf.toOperator table isOperand with ofNumber | ⟨right, atNumber, below⟩
    · exact beside.notRight ofNumber
    · exact beside.notBelow
        ((IsOperand.below ⟨_, atNumber, by simp [PatternNode.children]⟩).trans below)
  · rcases above.eq_or_below table isOperand with rfl | aboveNumber
    · exact beside.notBelow isOperand.below
    · exact beside.notAbove aboveNumber

/-- Operands that start together are beside each other. -/
theorem beside_operands
    (table : compiled.Sound)
    {first second : Nat}
    (isFirst : compiled.IsOperand number first)
    (isSecond : compiled.IsOperand number second)
    (different : first ≠ second)
    (notRight : ¬compiled.IsRight second) :
    compiled.Beside first second := by
  refine ⟨⟨?_, fun above => IsOperand.apart table isFirst isSecond different .refl above⟩,
    fun below => IsOperand.apart table isSecond isFirst different.symm .refl below⟩
  rintro ⟨top, left, right, atTop, ofLeft, ofRight⟩
  rcases ofRight.eq_or_below table isSecond with same | above
  · exact notRight ⟨top, left, same ▸ atTop⟩
  · exact not_below_sides table atTop ofLeft (.operand above isFirst)

/-- What waits while an operand starts over is beside it, unless it stands below. -/
theorem MayWait.beside_repeated
    (table : compiled.Sound)
    (mayWait : compiled.MayWait number other)
    (repeats : compiled.Repeats number child)
    (outside : ¬compiled.Below child other) :
    compiled.Beside child other := by
  refine ⟨⟨fun leftOf => ?_, fun above => ?_⟩, outside⟩
  · rcases leftOf.toOperator table repeats.isOperand with ofNumber | ⟨_, atNumber, _⟩
    · exact mayWait.notRight ofNumber
    · rw [Repeats, atNumber] at repeats
      cases repeats
  · rcases above.eq_or_below table repeats.isOperand with rfl | aboveNumber
    · exact outside .refl
    · exact mayWait.notAbove aboveNumber

section Compile

variable {schema : Schema} {expr : PatternExpr} {onRight : Bool}

/-- A leaf is listed as a leaf. -/
private theorem Listed.isLeaf
    (listed : Listed compiled number expr)
    (isLeaf : expr.isLeaf = true) :
    compiled.IsLeaf number := by
  cases expr <;> rw [Listed] at listed <;> try cases isLeaf
  case filter spec =>
      obtain ⟨_, atNumber⟩ := listed
      exact ⟨_, atNumber, rfl⟩
  case timer duration => exact ⟨_, listed, rfl⟩

/-- On a right side the node of a pattern starts over at most a leaf. -/
private theorem Listed.isLeaf_of_repeats
    (listed : Listed compiled number expr)
    (restarts : expr.restartsLeaves true = true)
    (repeats : compiled.Repeats number child) :
    compiled.IsLeaf child := by
  obtain ⟨node, atNumber, isRepeated⟩ := Option.bind_eq_some_iff.mp repeats
  cases expr <;> simp only [Listed, atNumber, Option.some.injEq] at listed
  case every inner =>
      obtain ⟨rfl, innerListed⟩ := listed
      cases isRepeated
      simp only [PatternExpr.restartsLeaves, Bool.not_true, Bool.false_or,
        Bool.and_eq_true] at restarts
      exact innerListed.isLeaf restarts.1
  case repetition inner least most =>
      obtain ⟨rfl, innerListed⟩ := listed
      cases isRepeated
      simp only [PatternExpr.restartsLeaves, Bool.not_true, Bool.false_or,
        Bool.and_eq_true] at restarts
      exact innerListed.isLeaf restarts.1
  case filter spec =>
      obtain ⟨_, rfl⟩ := listed
      cases isRepeated
  case alternation children =>
      obtain ⟨_, rfl, _⟩ := listed
      cases isRepeated
  case conjunction children =>
      obtain ⟨_, rfl, _⟩ := listed
      cases isRepeated
  case guarded inner guard =>
      obtain ⟨⟨_, rfl⟩, _⟩ := listed
      cases isRepeated
  case timer duration =>
      subst listed
      cases isRepeated
  all_goals
    obtain ⟨rfl, _⟩ := listed
    cases isRepeated

/-- An operand of several listed patterns is the number of one of them. -/
private theorem AllListed.exists_listed
    {children : List PatternExpr}
    (listed : AllListed compiled number children)
    (numbered : operand ∈ PatternExpr.numbersFrom number children) :
    ∃ part ∈ children, Listed compiled operand part := by
  induction children generalizing number with
  | nil => cases numbered
  | cons first rest inductionHypothesis =>
      rw [AllListed] at listed
      rcases List.mem_cons.mp numbered with isFirst | inRest
      · exact ⟨first, List.mem_cons_self, isFirst ▸ listed.1⟩
      · obtain ⟨part, member, partListed⟩ := inductionHypothesis listed.2 inRest
        exact ⟨part, List.mem_cons_of_mem _ member, partListed⟩

/-- Below a node on a right side every node is that of a part that stands there. -/
private theorem Listed.exists_part_below
    (listed : Listed compiled number expr)
    (restarts : expr.restartsLeaves true = true)
    (below : compiled.Below number other) :
    ∃ part, Listed compiled other part ∧ part.restartsLeaves true = true := by
  induction below with
  | refl => exact ⟨expr, listed, restarts⟩
  | operand _ isOperand inductionHypothesis =>
      obtain ⟨part, partListed, partRestarts⟩ := inductionHypothesis
      obtain ⟨inner, member, innerListed⟩ :=
        partListed.operands.exists_listed (partListed.isOperand_iff.mp isOperand)
      obtain ⟨side, innerRestarts, isSide⟩ :=
        PatternExpr.restartsLeaves_operand partRestarts member
      exact ⟨inner, innerListed, isSide rfl ▸ innerRestarts⟩

/-- Every number inside a listed pattern is that of a part, on a right side or not. -/
private theorem Listed.exists_part_restarts
    (listed : Listed compiled number expr)
    (restarts : expr.restartsLeaves onRight = true)
    (lower : number ≤ other)
    (upper : other < number + expr.size) :
    ∃ part side, Listed compiled other part ∧ part.restartsLeaves side = true := by
  induction expr using PatternExpr.operandInduction generalizing number onRight with
  | step expr inductionHypothesis =>
      by_cases isTop : other = number
      · exact ⟨expr, onRight, isTop ▸ listed, restarts⟩
      · have whole := expr.size_eq
        obtain ⟨child, start, member, _, childListed, above, under, _⟩ :=
          listed.operands.exists_child other (by omega) (by omega)
        obtain ⟨side, childRestarts, _⟩ := PatternExpr.restartsLeaves_operand restarts member
        exact inductionHypothesis child member childListed childRestarts above under

/-- What is written with restarted leaves only is compiled to it. -/
theorem restartsLeaves_of_compile
    (success : compile schema expr = .ok compiled)
    (restarts : expr.restartsLeaves false = true) :
    compiled.RestartsLeaves := by
  rintro number child ⟨right, ⟨top, left, atTop⟩, below⟩ repeats
  obtain ⟨listed, length⟩ := listed_of_compile success
  have inRange := (List.getElem?_eq_some_iff.mp atTop).1
  obtain ⟨part, side, partListed, partRestarts⟩ :=
    listed.exists_part_restarts restarts (Nat.zero_le top) (by omega)
  cases part <;> simp only [Listed, atTop, Option.some.injEq, reduceCtorEq, false_and, and_false,
    exists_false] at partListed
  case sequence leftPart rightPart =>
      obtain ⟨isNode, _, rightListed⟩ := partListed
      cases isNode
      rw [PatternExpr.restartsLeaves, Bool.and_eq_true] at partRestarts
      obtain ⟨inner, innerListed, innerRestarts⟩ :=
        rightListed.exists_part_below partRestarts.2 below
      exact innerListed.isLeaf_of_repeats innerRestarts repeats

end Compile

end CompiledPattern

end EventQuery
