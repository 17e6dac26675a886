import EventQuery.Proofs.Pattern.RightSide
import EventQuery.Proofs.Pattern.Ticket
import Mathlib.Data.Set.Card

namespace EventQuery

/-!
# Places for leaves

On a right side that starts only leaves over and over, every leaf has a place: the node that starts
it over, or the leaf itself when nothing does.  A state of a place stays while its leaf comes and
goes.  There are no more places than leaves.

What is counted here in lists and pools is compared by injections between sets.
-/

/--
A set is no larger than another when each of its members is related to one there that no other
member is related to.
-/
theorem encard_le_of_relates
    {α β : Type}
    {first : Set α}
    {second : Set β}
    (relates : α → β → Prop)
    (total : ∀ item ∈ first, ∃ image ∈ second, relates item image)
    (apart :
      ∀ item ∈ first, ∀ other ∈ first, ∀ image,
        relates item image → relates other image → item = other) :
    first.encard ≤ second.encard := by
  choose image inSecond related using total
  refine Function.Embedding.encard_le
    ⟨fun item => ⟨image item item.2, inSecond item item.2⟩, fun item other same => ?_⟩
  have sameImage : image item item.2 = image other other.2 := congrArg Subtype.val same
  have alsoRelated := related other other.2
  rw [← sameImage] at alsoRelated
  exact Subtype.ext (apart item item.2 other other.2 _ (related item item.2) alsoRelated)

/-- The number of items of a kind is the size of the set of their indexes. -/
theorem encard_indexes
    {α : Type}
    (items : List α)
    (kind : α → Bool) :
    {index : Nat | ∃ item, items[index]? = some item ∧ kind item = true}.encard =
      items.countP kind := by
  induction items with
  | nil => simp
  | cons first rest inductionHypothesis =>
      have isUnion : {index : Nat | ∃ item, (first :: rest)[index]? = some item ∧ kind item = true} =
          {index | index = 0 ∧ kind first = true} ∪
            Nat.succ '' {index | ∃ item, rest[index]? = some item ∧ kind item = true} := by
        ext index
        cases index with
        | zero => simp
        | succ index => simp
      have apart : Disjoint {index | index = 0 ∧ kind first = true}
          (Nat.succ '' {index | ∃ item, rest[index]? = some item ∧ kind item = true}) := by
        rw [Set.disjoint_left]
        rintro index ⟨rfl, _⟩ ⟨other, _, isZero⟩
        cases isZero
      rw [isUnion, Set.encard_union_eq apart, Nat.succ_injective.encard_image, inductionHypothesis,
        List.countP_cons]
      cases kind first <;> simp [add_comm]

/-- The number of contents of a kind is the size of the set of their tickets. -/
theorem Pool.encard_tickets
    {α : Type}
    (pool : Pool α)
    (kind : α → Bool) :
    {ticket : Ticket | ∃ content, pool.get? ticket = some content ∧ kind content = true}.encard =
      pool.count kind := by
  rw [count, ← Array.countP_toList, ← encard_indexes]
  refine le_antisymm ?_ ?_
  · refine encard_le_of_relates (fun ticket index => ticket.index = index) ?_ ?_
    · rintro ticket ⟨content, found, counted⟩
      exact ⟨_, ⟨_, by simpa using get?_eq_some_iff.mp found, by simpa using counted⟩, rfl⟩
    · rintro first ⟨content, found, _⟩ second ⟨held, foundOther, _⟩ index rfl sameIndex
      have here := get?_eq_some_iff.mp found
      rw [← sameIndex, get?_eq_some_iff.mp foundOther] at here
      cases first
      cases second
      cases sameIndex
      cases here
      rfl
  · refine encard_le_of_relates (fun index ticket => ticket.index = index) ?_ ?_
    · rintro index ⟨⟨generation, content⟩, atIndex, counted⟩
      cases content with
      | none => cases counted
      | some content =>
          exact ⟨⟨index, generation⟩,
            ⟨content, get?_eq_some_iff.mpr (by simpa using atIndex), counted⟩, rfl⟩
    · exact fun index _ other _ ticket isIndex isOther => isIndex.symm.trans isOther

namespace CompiledPattern

variable {compiled : CompiledPattern} {number child operator : Nat}

/-- A node starts a leaf over and over, or is a leaf that nothing starts over. -/
def IsPlace (compiled : CompiledPattern) (number : Nat) : Prop :=
  (∃ child, compiled.Repeats number child) ∨
    compiled.IsLeaf number ∧ ∀ operator, ¬compiled.Repeats operator number

theorem IsLeaf.not_repeats
    (isLeaf : compiled.IsLeaf number) :
    ¬compiled.Repeats number child :=
  fun repeats => isLeaf.not_operand repeats.isOperand

/-- The places at a node and below it. -/
def placesBelow (compiled : CompiledPattern) (number : Nat) : Set Nat :=
  {place | compiled.Below number place ∧ compiled.IsPlace place}

/-- The places on right sides. -/
def rightPlaces (compiled : CompiledPattern) : Set Nat :=
  {number | compiled.OnRight number ∧ compiled.IsPlace number}

/-- There are no more places on right sides than leaves. -/
theorem encard_rightPlaces_le
    (table : compiled.Sound)
    (restarts : compiled.RestartsLeaves) :
    compiled.rightPlaces.encard ≤
      {number | compiled.OnRight number ∧ compiled.IsLeaf number}.encard := by
  refine encard_le_of_relates
    (fun number leaf => compiled.Repeats number leaf ∨
      number = leaf ∧ ∀ operator, ¬compiled.Repeats operator leaf) ?_ ?_
  · rintro number ⟨onRight, ⟨child, repeats⟩ | ⟨isLeaf, unrepeated⟩⟩
    · exact ⟨child, ⟨onRight.below repeats.isOperand.below, restarts onRight repeats⟩, .inl repeats⟩
    · exact ⟨number, ⟨onRight, isLeaf⟩, .inr ⟨rfl, unrepeated⟩⟩
  · rintro first _ second _ leaf (firstRepeats | ⟨isFirst, unrepeated⟩)
      (secondRepeats | ⟨isSecond, unrepeated⟩)
    · exact table.operatorUnique firstRepeats.isOperand secondRepeats.isOperand
    · exact absurd firstRepeats (unrepeated first)
    · exact absurd secondRepeats (unrepeated second)
    · exact isFirst.trans isSecond.symm

/-- Every leaf stands on a right side or on none. -/
theorem encard_leaves
    (compiled : CompiledPattern) :
    {number | ¬compiled.OnRight number ∧ compiled.IsLeaf number}.encard +
        {number | compiled.OnRight number ∧ compiled.IsLeaf number}.encard =
      compiled.nodes.countP PatternNode.isLeaf := by
  have apart : Disjoint {number | ¬compiled.OnRight number ∧ compiled.IsLeaf number}
      {number | compiled.OnRight number ∧ compiled.IsLeaf number} := by
    rw [Set.disjoint_left]
    exact fun number early late => early.1 late.1
  rw [← Set.encard_union_eq apart, ← encard_indexes]
  congr 1
  ext number
  constructor
  · rintro (⟨_, isLeaf⟩ | ⟨_, isLeaf⟩) <;> exact isLeaf
  · intro isLeaf
    by_cases onRight : compiled.OnRight number
    · exact .inr ⟨onRight, isLeaf⟩
    · exact .inl ⟨onRight, isLeaf⟩

end CompiledPattern

end EventQuery
