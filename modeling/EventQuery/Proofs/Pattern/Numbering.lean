import EventQuery.Proofs.Pattern.Enclosing
import EventQuery.Proofs.Pattern.WellFormed

namespace EventQuery

/-!
# One numbering of a pattern

A pattern is walked over twice: once for its tags, which remember the repetitions around them by
number, and once for its nodes, among which these numbers are looked up.  Both walks count by
themselves.  They count alike: the number of a node is its place among the parts of the pattern, an
operator before its operands, and the repetitions that a tag remembers are the nodes of repetitions
around the first filter with the tag.
-/

namespace CompiledPattern

variable {compiled : CompiledPattern} {schema : Schema} {expr : PatternExpr} {number : Nat}

/-- Inside a listed pattern every number but that of the pattern itself is one of an operand. -/
theorem Listed.exists_operator
    {inner : Nat}
    (listed : Listed compiled number expr)
    (lower : number < inner)
    (upper : inner < number + expr.size) :
    ∃ operator, compiled.IsOperand operator inner := by
  induction expr using PatternExpr.operandInduction generalizing number with
  | step expr inductionHypothesis =>
      have whole := expr.size_eq
      obtain ⟨child, start, member, numbered, childListed, above, below, _⟩ :=
        listed.operands.exists_child inner (by omega) (by omega)
      rcases Nat.eq_or_lt_of_le above with rfl | inside
      · exact ⟨number, listed.isOperand_iff.mpr numbered⟩
      · exact inductionHypothesis child member childListed inside below

/-- The repetitions that a tag remembers are those around its first filter. -/
theorem exists_first_inside
    (success : compile schema expr = .ok compiled)
    {tag : Tag}
    (member : tag ∈ compiled.tags) :
    ∃ filter, PatternExpr.FirstFilter expr.parts filter tag.name ∧
      tag.repetitions.Pairwise (· < ·) ∧
        ∀ repetition, repetition ∈ tag.repetitions ↔
          compiled.IsRepetition repetition ∧ compiled.Below repetition filter := by
  have table := sound_of_compile success
  obtain ⟨filter, ⟨⟨predicate, atFilter⟩, around⟩, isFirst⟩ := exists_first_of_compile success member
  refine ⟨filter, isFirst, around.ascending table, fun repetition => ?_⟩
  rw [around.mem_iff table]
  refine and_congr_right fun ⟨child, least, most, innerSlots, atRepetition⟩ => and_iff_left ?_
  rintro rfl
  cases atFilter.symm.trans atRepetition

/-- A repetition collects the tags of which the first filter stands inside it, in order. -/
theorem mem_innerSlots_iff
    (success : compile schema expr = .ok compiled)
    {child least : Nat}
    {most : Option Nat}
    {slots : List Nat}
    (atNumber : compiled.nodes[number]? = some (.repetition child least most slots)) :
    slots.Pairwise (· < ·) ∧
      ∀ slot, slot ∈ slots ↔
        ∃ tag ∈ compiled.tags, tag.slot = slot ∧
          ∃ filter, PatternExpr.FirstFilter expr.parts filter tag.name ∧
            compiled.Below number filter := by
  have isRepetition : compiled.IsRepetition number := ⟨child, least, most, slots, atNumber⟩
  have collects : ∀ tag ∈ compiled.tags,
      number ∈ tag.repetitions ↔ ∃ filter,
        PatternExpr.FirstFilter expr.parts filter tag.name ∧ compiled.Below number filter := by
    intro tag member
    obtain ⟨filter, isFirst, _, inside⟩ := exists_first_inside success member
    rw [inside]
    constructor
    · exact fun ⟨_, below⟩ => ⟨filter, isFirst, below⟩
    · rintro ⟨other, isFirstToo, below⟩
      exact ⟨isRepetition, isFirst.unique isFirstToo ▸ below⟩
  refine ⟨ascending_innerSlots success atNumber, fun slot => ?_⟩
  constructor
  · intro isInner
    obtain ⟨tag, member, sameSlot, collected⟩ := exists_tag_of_innerSlots success atNumber isInner
    exact ⟨tag, member, sameSlot, (collects tag member).mp collected⟩
  · rintro ⟨tag, member, rfl, isInside⟩
    exact (slot_mem_innerSlots_iff success member atNumber).mpr ((collects tag member).mpr isInside)

/-- The table and the tags of a compiled pattern have the numbers of the parts of the pattern. -/
structure NumberedAlike (compiled : CompiledPattern) (expr : PatternExpr) : Prop where
  /-- There is one node for each part. -/
  length_eq : compiled.nodes.length = expr.parts.length
  /-- The node of a number is that of the part, and its operands are those of the part. -/
  exists_node :
    ∀ {number : Nat} {part : PatternExpr}, expr.parts[number]? = some part →
      ∃ node, compiled.nodes[number]? = some node ∧ node.IsOf compiled.tags number part ∧
        node.children.map (expr.parts[·]?) = part.operands.map some
  operandRange :
    ∀ {number operand : Nat}, compiled.IsOperand number operand →
      number < operand ∧ operand < compiled.nodes.length
  /-- Every node but the first is an operand of one node, and only once. -/
  existsUnique_operator :
    ∀ {operand : Nat}, 0 < operand → operand < compiled.nodes.length →
      ∃! number, compiled.IsOperand number operand
  operandsNodup :
    ∀ {number : Nat} {node : PatternNode}, compiled.nodes[number]? = some node →
      node.children.Nodup
  /-- The tags are those of the filters. -/
  exists_tag :
    ∀ {spec : FilterSpec} {name : String}, .filter spec ∈ expr.parts → spec.tag = some name →
      ∃ tag ∈ compiled.tags, tag.name = name
  /-- A tag remembers the repetitions around its first filter, from the outside in. -/
  exists_first :
    ∀ tag ∈ compiled.tags, ∃ filter,
      PatternExpr.FirstFilter expr.parts filter tag.name ∧
        tag.repetitions.Pairwise (· < ·) ∧
          ∀ repetition, repetition ∈ tag.repetitions ↔
            compiled.IsRepetition repetition ∧ compiled.Below repetition filter
  /-- A repetition collects the tags of which the first filter stands inside it. -/
  innerSlots :
    ∀ {number child least : Nat} {most : Option Nat} {slots : List Nat},
      compiled.nodes[number]? = some (.repetition child least most slots) →
        slots.Pairwise (· < ·) ∧
          ∀ slot, slot ∈ slots ↔
            ∃ tag ∈ compiled.tags, tag.slot = slot ∧
              ∃ filter, PatternExpr.FirstFilter expr.parts filter tag.name ∧
                compiled.Below number filter

/--
Both walks over a pattern that compiles number it alike: nodes are listed as the parts of the
pattern are, tags remember the repetitions around their first filters by these numbers, and a
repetition collects the tags that are declared inside it.
-/
theorem numberedAlike_of_compile
    (success : compile schema expr = .ok compiled) :
    NumberedAlike compiled expr := by
  have table := sound_of_compile success
  have collects := collectFrom_of_compile success
  obtain ⟨listed, length⟩ := listed_of_compile success
  constructor
  case length_eq => rw [length, PatternExpr.length_parts]
  case exists_node =>
      intro number part atNumber
      have partListed := listed.of_part atNumber
      rw [Nat.zero_add] at partListed
      obtain ⟨node, isNode, numbers⟩ := partListed.exists_node
      refine ⟨node, isNode, partListed.isOf isNode, ?_⟩
      have together := PatternExpr.parts_prefix_drop atNumber
      rw [PatternExpr.parts_eq part] at together
      rw [numbers, PatternExpr.map_numbersFrom (tail_prefix_drop together)]
  case operandRange => exact table.operandRange
  case existsUnique_operator =>
      intro operand lower upper
      obtain ⟨operator, isOperand⟩ := listed.exists_operator lower (by omega)
      exact ⟨operator, isOperand, fun other ofOther => table.operatorUnique ofOther isOperand⟩
  case operandsNodup => exact table.operandsNodup
  case exists_tag =>
      intro spec name isPart named
      obtain ⟨tag, member, sameName, _⟩ := exists_tag_of_collectFrom collects isPart named
      exact ⟨tag, member, sameName⟩
  case exists_first => exact fun tag member => exists_first_inside success member
  case innerSlots => exact fun atNumber => mem_innerSlots_iff success atNumber

/-- One tag is declared outside all repetitions and one in each of two, and the first is bound again. -/
def tickBeforeRounds : PatternExpr :=
  .sequence (.filter ⟨some "t", "Tick", none⟩)
    (.repetition
      (.conjunction
        [.filter ⟨some "s", "Tick", none⟩,
          .repetition
            (.alternation [.filter ⟨some "t", "Tick", none⟩, .filter ⟨some "u", "Tick", none⟩])
            1 none])
      2 (some 3))

/-- The same pattern, compiled. -/
def compiledTickBeforeRounds : CompiledPattern where
  nodes :=
    [.sequence 1 2, .filter "Tick" (some 0) none, .repetition 3 2 (some 3) [1, 2],
      .conjunction [4, 5], .filter "Tick" (some 1) none, .repetition 6 1 none [2],
      .alternation [7, 8], .filter "Tick" (some 0) none, .filter "Tick" (some 2) none]
  tags := [⟨"t", "Tick", 0, []⟩, ⟨"s", "Tick", 1, [2]⟩, ⟨"u", "Tick", 2, [2, 5]⟩]

/-- The outer repetition collects two of the tags, and the inner one the last. -/
theorem numberedAlike_of_compile_tickBeforeRounds :
    compile Engine.tickSchema tickBeforeRounds = .ok compiledTickBeforeRounds ∧
      NumberedAlike compiledTickBeforeRounds tickBeforeRounds := by
  have compiles : compile Engine.tickSchema tickBeforeRounds = .ok compiledTickBeforeRounds := rfl
  exact ⟨compiles, numberedAlike_of_compile compiles⟩

end CompiledPattern

end EventQuery
