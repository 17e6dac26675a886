import EventQuery.Proofs.Pattern.Lineage
import EventQuery.Proofs.Pattern.Pricing

namespace EventQuery

/-!
# Operands that start over

The operand of `every` and of a repetition starts over and over, and the right operand of a sequence
once for each match of the left one.  All other operands start once for each start of their operator.
-/

namespace CompiledPattern

variable {compiled : CompiledPattern} {number operand right child : Nat}

/-- A node is the right operand of a sequence. -/
def IsRight (compiled : CompiledPattern) (number : Nat) : Prop :=
  ∃ top left : Nat, compiled.nodes[top]? = some (.sequence left number)

/-- A node starts an operand over and over. -/
def Repeats (compiled : CompiledPattern) (number child : Nat) : Prop :=
  compiled.nodes[number]?.bind PatternNode.repeated = some child

/-- A node is a filter or a timer. -/
def IsLeaf (compiled : CompiledPattern) (number : Nat) : Prop :=
  ∃ node, compiled.nodes[number]? = some node ∧ node.isLeaf = true

theorem Repeats.isOperand
    (repeats : compiled.Repeats number child) :
    compiled.IsOperand number child := by
  obtain ⟨node, atNumber, isRepeated⟩ := Option.bind_eq_some_iff.mp repeats
  refine ⟨node, atNumber, ?_⟩
  cases node <;> cases isRepeated <;> exact List.mem_singleton_self _

/-- The two operands of a sequence are different nodes. -/
theorem left_ne_right
    (table : compiled.Sound)
    {top left : Nat}
    (atTop : compiled.nodes[top]? = some (.sequence left right)) :
    left ≠ right := by
  have distinct := table.operandsNodup atTop
  exact fun same => (List.nodup_cons.mp distinct).1 (by simp [same])

/-- Only the right operand of a sequence is a right operand. -/
theorem eq_of_isRight
    (table : compiled.Sound)
    (isRight : compiled.IsRight operand)
    (isOperand : compiled.IsOperand number operand) :
    ∃ left, compiled.nodes[number]? = some (.sequence left operand) := by
  obtain ⟨top, left, atTop⟩ := isRight
  have same := table.operatorUnique ⟨_, atTop, by simp [PatternNode.children]⟩ isOperand
  exact ⟨left, same ▸ atTop⟩

theorem Repeats.not_isRight
    (table : compiled.Sound)
    (repeats : compiled.Repeats number child) :
    ¬compiled.IsRight child := by
  intro isRight
  obtain ⟨left, atNumber⟩ := eq_of_isRight table isRight repeats.isOperand
  rw [Repeats, atNumber] at repeats
  cases repeats

end CompiledPattern

end EventQuery
