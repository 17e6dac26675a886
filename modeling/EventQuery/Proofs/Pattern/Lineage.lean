import EventQuery.Proofs.Pattern.NodeTable

namespace EventQuery

namespace CompiledPattern

/-!
# Lineage of nodes

A node stands below another when it is reached from it by going from operators to operands.  The
nodes above a node form one line, so that the parts of a pattern are nested or apart.
-/

/-- A node is reached from another by going from operators to operands. -/
inductive Below (compiled : CompiledPattern) (top : Nat) : Nat → Prop where
  | refl : Below compiled top top
  | operand {number operand : Nat} :
      Below compiled top number → compiled.IsOperand number operand →
        Below compiled top operand

section Lineage

variable {compiled : CompiledPattern} {first second third number operand other : Nat}

theorem Below.trans
    (upper : compiled.Below first second)
    (lower : compiled.Below second third) :
    compiled.Below first third := by
  induction lower with
  | refl =>
      exact upper
  | operand _ isOperand inductionHypothesis =>
      exact .operand inductionHypothesis isOperand

/-- An operand is below its operator. -/
theorem IsOperand.below
    (isOperand : compiled.IsOperand number operand) :
    compiled.Below number operand :=
  .operand .refl isOperand

/-- Nodes below another have later numbers. -/
theorem Below.le
    (table : compiled.Sound)
    (below : compiled.Below first second) :
    first ≤ second := by
  induction below with
  | refl =>
      exact Nat.le_refl _
  | operand _ isOperand inductionHypothesis =>
      exact Nat.le_trans inductionHypothesis (Nat.le_of_lt (table.operandRange isOperand).1)

/-- What is above an operand is the operand itself or above its operator. -/
theorem Below.eq_or_below
    (table : compiled.Sound)
    (below : compiled.Below first operand)
    (isOperand : compiled.IsOperand number operand) :
    first = operand ∨ compiled.Below first number := by
  cases below with
  | refl =>
      exact .inl rfl
  | operand above ofOther =>
      exact .inr (table.operatorUnique ofOther isOperand ▸ above)

/-- What an operand stands inside of is its operator or around it. -/
theorem inside_operand_iff
    (table : compiled.Sound)
    (isOperand : compiled.IsOperand number operand) :
    compiled.Below first operand ∧ first ≠ operand ↔ compiled.Below first number := by
  constructor
  · rintro ⟨below, different⟩
    exact (below.eq_or_below table isOperand).resolve_left different
  · intro below
    have behind := (table.operandRange isOperand).1
    have before := below.le table
    exact ⟨.operand below isOperand, by omega⟩

/-- What is below a node is the node itself or below one of its operands. -/
theorem Below.eq_or_exists_operand
    (below : compiled.Below first second) :
    first = second ∨
      ∃ operand, compiled.IsOperand first operand ∧ compiled.Below operand second := by
  induction below with
  | refl =>
      exact .inl rfl
  | operand _ isOperand inductionHypothesis =>
      rcases inductionHypothesis with same | ⟨middle, ofFirst, below⟩
      · subst same
        exact .inr ⟨_, isOperand, .refl⟩
      · exact .inr ⟨middle, ofFirst, .operand below isOperand⟩

/-- The nodes above a node form one line. -/
theorem Below.total
    (table : compiled.Sound)
    (ofFirst : compiled.Below first third)
    (ofSecond : compiled.Below second third) :
    compiled.Below first second ∨ compiled.Below second first := by
  induction ofFirst with
  | refl =>
      exact .inr ofSecond
  | operand _ isOperand inductionHypothesis =>
      rcases ofSecond.eq_or_below table isOperand with same | above
      · subst same
        exact .inl (.operand ‹_› isOperand)
      · exact inductionHypothesis above

/-- An operand is not above its operator. -/
theorem IsOperand.not_below
    (table : compiled.Sound)
    (isOperand : compiled.IsOperand number operand) :
    ¬compiled.Below operand number := by
  intro below
  have before := (table.operandRange isOperand).1
  have after := below.le table
  omega

/-- Nothing is below two operands of one operator. -/
theorem IsOperand.apart
    (table : compiled.Sound)
    (isFirst : compiled.IsOperand number first)
    (isSecond : compiled.IsOperand number second)
    (different : first ≠ second)
    (ofFirst : compiled.Below first third) :
    ¬compiled.Below second third := by
  intro ofSecond
  rcases ofFirst.total table ofSecond with firstAbove | secondAbove
  · rcases firstAbove.eq_or_below table isSecond with same | above
    · exact different same
    · exact isFirst.not_below table above
  · rcases secondAbove.eq_or_below table isFirst with same | above
    · exact different same.symm
    · exact isSecond.not_below table above

end Lineage

/-- A filter that binds its event at a slot. -/
def Binds (compiled : CompiledPattern) (number slot : Nat) : Prop :=
  ∃ eventType predicate, compiled.nodes[number]? = some (.filter eventType (some slot) predicate)

end CompiledPattern

end EventQuery
