import EventQuery.Proofs.Pattern.Listing

namespace EventQuery

/-!
# Node tables

The running engine looks nodes up by number.  This module collects what every compiled pattern
promises about its table: operands stand behind their operator, each node but the first is an
operand of exactly one other, a time bound over an absence has a negation for its operand, and the
slots that filters and repetitions write to exist.
-/

namespace PatternNode

/-- The slots that a node writes to. -/
def slots : PatternNode → List Nat
  | .filter _ slot _ => slot.toList
  | .repetition _ _ _ innerSlots => innerSlots
  | _ => []

/-- The node of a number is the operator or leaf of a pattern, in all that it says itself. -/
inductive IsOf (tags : List Tag) (number : Nat) : PatternNode → PatternExpr → Prop where
  | filter {spec : FilterSpec} {eventType : String} {slot : Option Nat} {predicate : Option Node} :
      eventType = spec.eventType → slot = (spec.tag.bind (Tag.find? tags)).map Tag.slot →
        IsOf tags number (.filter eventType slot predicate) (.filter spec)
  | every {operand : Nat} {child : PatternExpr} :
      IsOf tags number (.every operand) (.every child)
  | sequence {first second : Nat} {left right : PatternExpr} :
      IsOf tags number (.sequence first second) (.sequence left right)
  | alternation {operands : List Nat} {children : List PatternExpr} :
      IsOf tags number (.alternation operands) (.alternation children)
  | conjunction {operands : List Nat} {children : List PatternExpr} :
      IsOf tags number (.conjunction operands) (.conjunction children)
  | repetition {operand least : Nat} {most : Option Nat} {innerSlots : List Nat}
      {child : PatternExpr} :
      innerSlots = CompiledPattern.innerSlots tags number →
        IsOf tags number (.repetition operand least most innerSlots) (.repetition child least most)
  | negation {operand : Nat} {child : PatternExpr} :
      IsOf tags number (.negation operand) (.negation child)
  | within {operand duration length : Nat} {absence : Bool} {child : PatternExpr} :
      duration = min length CompiledPattern.longestDuration → absence = child.isNegation →
        IsOf tags number (.within operand duration absence) (.within child length)
  | guarded {operand : Nat} {condition : Node} {child : PatternExpr} {guard : Expr} :
      IsOf tags number (.guarded operand condition) (.guarded child guard)
  | timer {duration length : Nat} :
      duration = min length CompiledPattern.longestDuration →
        IsOf tags number (.timer duration) (.timer length)

end PatternNode

namespace CompiledPattern

open PatternExpr

variable {compiled : CompiledPattern}

/-- One number is that of an operand of another. -/
def IsOperand (compiled : CompiledPattern) (number operand : Nat) : Prop :=
  ∃ node, compiled.nodes[number]? = some node ∧ operand ∈ node.children

/-- The promises of a node table. -/
structure Sound (compiled : CompiledPattern) : Prop where
  nonempty : 0 < compiled.nodes.length
  operandRange :
    ∀ {number operand : Nat}, compiled.IsOperand number operand →
      number < operand ∧ operand < compiled.nodes.length
  operandsNodup :
    ∀ {number : Nat} {node : PatternNode},
      compiled.nodes[number]? = some node → node.children.Nodup
  operatorUnique :
    ∀ {first second operand : Nat}, compiled.IsOperand first operand →
      compiled.IsOperand second operand → first = second
  alternationNonempty :
    ∀ {number : Nat}, compiled.nodes[number]? ≠ some (.alternation [])
  conjunctionNonempty :
    ∀ {number : Nat}, compiled.nodes[number]? ≠ some (.conjunction [])
  absence :
    ∀ {number child duration : Nat},
      compiled.nodes[number]? = some (.within child duration true) →
        ∃ negated, compiled.nodes[child]? = some (.negation negated)
  slotRange :
    ∀ {number : Nat} {node : PatternNode}, compiled.nodes[number]? = some node →
      ∀ slot ∈ node.slots, slot < compiled.width

/-- The operands of a listed pattern are listed behind it. -/
theorem Listed.operands
    {number : Nat}
    {expr : PatternExpr}
    (listed : Listed compiled number expr) :
    AllListed compiled (number + 1) expr.operands := by
  cases expr <;> rw [Listed] at listed
  case filter spec =>
      rw [PatternExpr.operands, AllListed]
      trivial
  case timer duration =>
      rw [PatternExpr.operands, AllListed]
      trivial
  case sequence left right =>
      simpa only [PatternExpr.operands, AllListed, and_true] using listed.2
  case alternation children =>
      exact listed.2.2
  case conjunction children =>
      exact listed.2.2
  all_goals simpa only [PatternExpr.operands, AllListed, and_true] using listed.2

/-- The node of a listed pattern knows its operands by their numbers. -/
theorem Listed.exists_node
    {number : Nat}
    {expr : PatternExpr}
    (listed : Listed compiled number expr) :
    ∃ node, compiled.nodes[number]? = some node ∧
      node.children = numbersFrom (number + 1) expr.operands := by
  cases expr <;> rw [Listed] at listed
  case filter spec =>
      obtain ⟨_, atNumber⟩ := listed
      exact ⟨_, atNumber, rfl⟩
  case alternation children =>
      exact ⟨_, listed.2.1, rfl⟩
  case conjunction children =>
      exact ⟨_, listed.2.1, rfl⟩
  case guarded child guard =>
      obtain ⟨⟨_, atNumber⟩, _⟩ := listed
      exact ⟨_, atNumber, rfl⟩
  case timer duration =>
      exact ⟨_, listed, rfl⟩
  all_goals exact ⟨_, listed.1, rfl⟩

/-- The node of a listed pattern is its operator or leaf. -/
theorem Listed.isOf
    {number : Nat}
    {expr : PatternExpr}
    {node : PatternNode}
    (listed : Listed compiled number expr)
    (atNumber : compiled.nodes[number]? = some node) :
    node.IsOf compiled.tags number expr := by
  cases expr <;> rw [Listed] at listed
  case filter spec =>
      obtain ⟨_, listed⟩ := listed
      cases atNumber.symm.trans listed
      exact .filter rfl rfl
  case every child =>
      cases atNumber.symm.trans listed.1
      exact .every
  case sequence left right =>
      cases atNumber.symm.trans listed.1
      exact .sequence
  case alternation children =>
      cases atNumber.symm.trans listed.2.1
      exact .alternation
  case conjunction children =>
      cases atNumber.symm.trans listed.2.1
      exact .conjunction
  case repetition child least most =>
      cases atNumber.symm.trans listed.1
      exact .repetition rfl
  case negation child =>
      cases atNumber.symm.trans listed.1
      exact .negation
  case within child length =>
      cases atNumber.symm.trans listed.1
      exact .within rfl rfl
  case guarded child guard =>
      obtain ⟨⟨_, listed⟩, _⟩ := listed
      cases atNumber.symm.trans listed
      exact .guarded
  case timer length =>
      cases atNumber.symm.trans listed
      exact .timer rfl

/-- The operands of a listed pattern are known by their numbers. -/
theorem Listed.isOperand_iff
    {number operand : Nat}
    {expr : PatternExpr}
    (listed : Listed compiled number expr) :
    compiled.IsOperand number operand ↔ operand ∈ numbersFrom (number + 1) expr.operands := by
  obtain ⟨node, atNumber, numbers⟩ := listed.exists_node
  rw [← numbers]
  constructor
  · rintro ⟨other, atOther, member⟩
    rw [atNumber] at atOther
    cases atOther
    exact member
  · intro member
    exact ⟨node, atNumber, member⟩

/-- A number inside several listed patterns lies inside one of them. -/
theorem AllListed.exists_child
    {number : Nat}
    {children : List PatternExpr}
    (listed : AllListed compiled number children)
    (inner : Nat)
    (lower : number ≤ inner)
    (upper : inner < number + totalSize children) :
    ∃ child start, child ∈ children ∧ start ∈ numbersFrom number children ∧
      Listed compiled start child ∧ start ≤ inner ∧ inner < start + child.size ∧
        start + child.size ≤ number + totalSize children := by
  induction children generalizing number with
  | nil =>
      rw [totalSize] at upper
      omega
  | cons child rest inductionHypothesis =>
      rw [AllListed] at listed
      rw [totalSize] at upper ⊢
      rw [numbersFrom]
      by_cases inFirst : inner < number + child.size
      · exact ⟨child, number, by simp, by simp, listed.1, lower, inFirst, by omega⟩
      · obtain ⟨found, start, member, numbered, foundListed, above, below, within⟩ :=
          inductionHypothesis listed.2 (by omega) (by omega)
        exact ⟨found, start, by simp [member], by simp [numbered], foundListed, above, below,
          by omega⟩

private theorem AllListed.of_part
    {children : List PatternExpr}
    (inChild :
      ∀ child ∈ children, ∀ {part : PatternExpr} {number index : Nat},
        Listed compiled number child → child.parts[index]? = some part →
          Listed compiled (number + index) part)
    {number index : Nat}
    {part : PatternExpr}
    (listed : AllListed compiled number children)
    (atIndex : (partsOfAll children)[index]? = some part) :
    Listed compiled (number + index) part := by
  induction children generalizing number index with
  | nil => cases atIndex
  | cons child rest inductionHypothesis =>
      rw [List.forall_mem_cons] at inChild
      rw [AllListed] at listed
      rw [partsOfAll] at atIndex
      rcases Nat.lt_or_ge index child.parts.length with inFirst | behind
      · rw [List.getElem?_append_left inFirst] at atIndex
        exact inChild.1 listed.1 atIndex
      · rw [List.getElem?_append_right behind] at atIndex
        have inRest := inductionHypothesis inChild.2 listed.2 atIndex
        rw [length_parts] at behind inRest
        rwa [Nat.add_assoc, Nat.add_sub_cancel' behind] at inRest

/-- The parts of a listed pattern are listed at their numbers. -/
theorem Listed.of_part
    {expr part : PatternExpr}
    {number index : Nat}
    (listed : Listed compiled number expr)
    (atIndex : expr.parts[index]? = some part) :
    Listed compiled (number + index) part := by
  induction expr using operandInduction generalizing number index part with
  | step expr inductionHypothesis =>
      rw [parts_eq] at atIndex
      cases index with
      | zero =>
          rw [List.getElem?_cons_zero, Option.some.injEq] at atIndex
          exact atIndex ▸ listed
      | succ index =>
          rw [List.getElem?_cons_succ] at atIndex
          rw [Nat.add_comm index 1, ← Nat.add_assoc]
          exact AllListed.of_part
            (fun child member _ _ _ listed atIndex => inductionHypothesis child member listed atIndex)
            listed.operands atIndex

/-- Every number inside a listed pattern starts the listing of a part of it. -/
theorem Listed.exists_part
    {expr : PatternExpr}
    {number inner : Nat}
    (listed : Listed compiled number expr)
    (lower : number ≤ inner)
    (upper : inner < number + expr.size) :
    ∃ part, Listed compiled inner part ∧ inner + part.size ≤ number + expr.size := by
  obtain ⟨index, rfl⟩ := Nat.exists_eq_add_of_le lower
  have inParts : index < expr.parts.length := by
    rw [length_parts]
    omega
  have atIndex : expr.parts[index]? = some expr.parts[index] := List.getElem?_eq_getElem inParts
  have inside := (parts_prefix_drop atIndex).length_le
  rw [List.length_drop, length_parts, length_parts] at inside
  exact ⟨_, listed.of_part atIndex, by omega⟩

/-- The operands of a number inside a listed pattern have later numbers and lie inside it. -/
theorem Listed.operand_range
    {number inner operand : Nat}
    {expr : PatternExpr}
    (listed : Listed compiled number expr)
    (lower : number ≤ inner)
    (upper : inner < number + expr.size)
    (isOperand : compiled.IsOperand inner operand) :
    inner < operand ∧ operand < number + expr.size := by
  obtain ⟨part, partListed, within⟩ := listed.exists_part lower upper
  have member := partListed.isOperand_iff.mp isOperand
  have behind := le_of_mem_numbersFrom member
  have inside := lt_of_mem_numbersFrom member
  have whole := part.size_eq
  omega

/-- A number inside one of several patterns has no operand among the numbers of all of them. -/
theorem AllListed.not_operand_of_inside
    {number inner operand : Nat}
    {children : List PatternExpr}
    (listed : AllListed compiled number children)
    (lower : number ≤ inner)
    (upper : inner < number + totalSize children)
    (isOperand : compiled.IsOperand inner operand) :
    operand ∉ numbersFrom number children := by
  induction children generalizing number with
  | nil =>
      simp [numbersFrom]
  | cons child rest inductionHypothesis =>
      rw [AllListed] at listed
      rw [totalSize] at upper
      rw [numbersFrom, List.mem_cons, not_or]
      by_cases inFirst : inner < number + child.size
      · obtain ⟨behind, inside⟩ := listed.1.operand_range lower inFirst isOperand
        refine ⟨by omega, ?_⟩
        intro member
        have later := le_of_mem_numbersFrom member
        omega
      · obtain ⟨start, first, _, _, startListed, above, below, _⟩ :=
          listed.2.exists_child inner (by omega) (by omega)
        have behind := (startListed.operand_range above below isOperand).1
        exact ⟨by omega, inductionHypothesis listed.2 (by omega) (by omega)⟩

/--
Two numbers inside several patterns have no operand in common when two numbers inside one of them
never do.
-/
private theorem allListed_operator_unique
    {number first second operand : Nat}
    {children : List PatternExpr}
    (listed : AllListed compiled number children)
    (inChild :
      ∀ child ∈ children, ∀ {start : Nat}, Listed compiled start child →
        start ≤ first → first < start + child.size →
          start ≤ second → second < start + child.size → first = second)
    (firstLower : number ≤ first)
    (firstUpper : first < number + totalSize children)
    (secondLower : number ≤ second)
    (secondUpper : second < number + totalSize children)
    (ofFirst : compiled.IsOperand first operand)
    (ofSecond : compiled.IsOperand second operand) :
    first = second := by
  induction children generalizing number with
  | nil =>
      rw [totalSize] at firstUpper
      omega
  | cons child rest inductionHypothesis =>
      rw [AllListed] at listed
      rw [totalSize] at firstUpper secondUpper
      by_cases firstHere : first < number + child.size
      · obtain ⟨_, firstInside⟩ := listed.1.operand_range firstLower firstHere ofFirst
        by_cases secondHere : second < number + child.size
        · exact inChild child (by simp) listed.1 firstLower firstHere secondLower secondHere
        · obtain ⟨_, _, _, _, found, above, below, _⟩ :=
            listed.2.exists_child second (by omega) (by omega)
          have := (found.operand_range above below ofSecond).1
          omega
      · by_cases secondHere : second < number + child.size
        · obtain ⟨_, secondInside⟩ := listed.1.operand_range secondLower secondHere ofSecond
          obtain ⟨_, _, _, _, found, above, below, _⟩ :=
            listed.2.exists_child first (by omega) (by omega)
          have := (found.operand_range above below ofFirst).1
          omega
        · exact inductionHypothesis listed.2 (fun other member => inChild other (by simp [member]))
            (by omega) (by omega) (by omega) (by omega)

/-- Two numbers inside one listed pattern have no operand in common. -/
theorem Listed.operator_unique
    {expr : PatternExpr}
    {number first second operand : Nat}
    (listed : Listed compiled number expr)
    (firstLower : number ≤ first)
    (firstUpper : first < number + expr.size)
    (secondLower : number ≤ second)
    (secondUpper : second < number + expr.size)
    (ofFirst : compiled.IsOperand first operand)
    (ofSecond : compiled.IsOperand second operand) :
    first = second := by
  induction expr using operandInduction generalizing number with
  | step expr inductionHypothesis =>
      have whole := expr.size_eq
      by_cases firstIsTop : first = number
      · by_cases secondIsTop : second = number
        · exact firstIsTop.trans secondIsTop.symm
        · rw [firstIsTop, listed.isOperand_iff] at ofFirst
          exact absurd ofFirst
            (listed.operands.not_operand_of_inside (by omega) (by omega) ofSecond)
      · by_cases secondIsTop : second = number
        · rw [secondIsTop, listed.isOperand_iff] at ofSecond
          exact absurd ofSecond
            (listed.operands.not_operand_of_inside (by omega) (by omega) ofFirst)
        · exact allListed_operator_unique listed.operands inductionHypothesis (by omega)
            (by omega) (by omega) (by omega) ofFirst ofSecond

private theorem Listed.operands_ne_nil
    {number : Nat}
    {expr : PatternExpr}
    {node : PatternNode}
    (listed : Listed compiled number expr)
    (atNumber : compiled.nodes[number]? = some node) :
    node ≠ .alternation [] ∧ node ≠ .conjunction [] := by
  cases listed.isOf atNumber with
  | @alternation _ children =>
      rw [Listed, atNumber] at listed
      obtain ⟨present, sameNode, _⟩ := listed
      cases sameNode
      cases children with
      | nil => exact absurd rfl present
      | cons child rest => simp [numbersFrom]
  | @conjunction _ children =>
      rw [Listed, atNumber] at listed
      obtain ⟨present, sameNode, _⟩ := listed
      cases sameNode
      cases children with
      | nil => exact absurd rfl present
      | cons child rest => simp [numbersFrom]
  | _ => simp

private theorem Listed.absence
    {number child duration : Nat}
    {expr : PatternExpr}
    (listed : Listed compiled number expr)
    (atNumber : compiled.nodes[number]? = some (.within child duration true)) :
    ∃ negated, compiled.nodes[child]? = some (.negation negated) := by
  cases listed.isOf atNumber with
  | @within _ _ _ _ operand _ isAbsence =>
      rw [Listed, atNumber] at listed
      obtain ⟨sameNode, operandListed⟩ := listed
      injection sameNode with sameNode
      injection sameNode with sameChild
      subst sameChild
      cases operand <;> simp [PatternExpr.isNegation] at isAbsence
      rw [Listed] at operandListed
      exact ⟨_, operandListed.1⟩

private theorem Listed.slot_lt
    {number slot : Nat}
    {expr : PatternExpr}
    {node : PatternNode}
    (listed : Listed compiled number expr)
    (placed : Tag.Placed compiled.tags)
    (atNumber : compiled.nodes[number]? = some node)
    (writes : slot ∈ node.slots) :
    slot < compiled.width := by
  cases listed.isOf atNumber with
  | filter _ isSlot =>
      subst isSlot
      simp only [PatternNode.slots, Option.mem_toList, Option.map_eq_some_iff,
        Option.bind_eq_some_iff] at writes
      obtain ⟨tag, ⟨_, _, found⟩, isSlot⟩ := writes
      exact isSlot ▸ placed.slot_lt (Tag.mem_of_find? found).1
  | repetition isInner =>
      subst isInner
      simp only [PatternNode.slots, innerSlots, List.mem_map, List.mem_filter] at writes
      obtain ⟨tag, ⟨member, _⟩, isSlot⟩ := writes
      exact isSlot ▸ placed.slot_lt member
  | _ => simp [PatternNode.slots] at writes

/-- The table of a compiled pattern keeps its promises. -/
theorem sound_of_compile
    {schema : Schema}
    {expr : PatternExpr}
    (success : compile schema expr = .ok compiled) :
    compiled.Sound := by
  obtain ⟨listed, length⟩ := listed_of_compile success
  have placed := Tag.placed_of_collectFrom (collectFrom_of_compile success)
  have inRange : ∀ {number : Nat} {node : PatternNode},
      compiled.nodes[number]? = some node → number < 0 + expr.size := by
    intro number node atNumber
    have := (List.getElem?_eq_some_iff.mp atNumber).1
    omega
  have part : ∀ {number : Nat} {node : PatternNode},
      compiled.nodes[number]? = some node → ∃ part, Listed compiled number part := by
    intro number node atNumber
    obtain ⟨part, partListed, _⟩ := listed.exists_part (Nat.zero_le _) (inRange atNumber)
    exact ⟨part, partListed⟩
  constructor
  case nonempty =>
      rw [length]
      exact expr.size_pos
  case operandRange =>
      intro number operand isOperand
      obtain ⟨node, atNumber, _⟩ := id isOperand
      have range := listed.operand_range (Nat.zero_le _) (inRange atNumber) isOperand
      omega
  case operandsNodup =>
      intro number node atNumber
      obtain ⟨part, partListed⟩ := part atNumber
      obtain ⟨same, atSame, numbers⟩ := partListed.exists_node
      rw [atNumber] at atSame
      cases atSame
      rw [numbers]
      exact nodup_numbersFrom _ _
  case operatorUnique =>
      intro first second operand ofFirst ofSecond
      obtain ⟨_, atFirst, _⟩ := id ofFirst
      obtain ⟨_, atSecond, _⟩ := id ofSecond
      exact listed.operator_unique (Nat.zero_le _) (inRange atFirst) (Nat.zero_le _)
        (inRange atSecond) ofFirst ofSecond
  case alternationNonempty =>
      intro number atNumber
      obtain ⟨part, partListed⟩ := part atNumber
      exact (partListed.operands_ne_nil atNumber).1 rfl
  case conjunctionNonempty =>
      intro number atNumber
      obtain ⟨part, partListed⟩ := part atNumber
      exact (partListed.operands_ne_nil atNumber).2 rfl
  case absence =>
      intro number child duration atNumber
      obtain ⟨part, partListed⟩ := part atNumber
      exact partListed.absence atNumber
  case slotRange =>
      intro number node atNumber slot writes
      obtain ⟨part, partListed⟩ := part atNumber
      exact partListed.slot_lt placed atNumber writes

theorem not_negation
    {number : Nat}
    {node : PatternNode}
    (atNumber : compiled.nodes[number]? = some node)
    (other : ∀ child, node ≠ .negation child) :
    ∀ child, compiled.nodes[number]? ≠ some (.negation child) :=
  fun child isNegation => other child (Option.some.inj (atNumber.symm.trans isNegation))

end CompiledPattern

end EventQuery
