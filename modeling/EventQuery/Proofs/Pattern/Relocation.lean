import EventQuery.Pattern.Engine
import Mathlib.Data.Option.Basic

namespace EventQuery

/-!
# Relocated states

The states of a pattern that runs inside a larger one stand behind the states of the operators
around it: their tickets, the numbers of their nodes and the numbers under which they were created
are later by as many places.  The order of ranks does not change with it, so that pools and indexes
do with relocated contents what they did with the contents in their first places.
-/

/-- The ticket for the slot that stands some places later. -/
def Ticket.behind (places : Nat) (ticket : Ticket) : Ticket :=
  ⟨ticket.index + places, ticket.generation⟩

theorem Ticket.behind_injective
    (places : Nat) :
    Function.Injective (Ticket.behind places) := by
  intro first second same
  cases first
  cases second
  simpa [Ticket.behind] using same

section Pools

variable {α : Type}

/-- A slot with its content changed. -/
def PoolSlot.map (change : α → α) (slot : PoolSlot α) : PoolSlot α :=
  ⟨slot.generation, slot.content.map change⟩

namespace Pool

/-- A pool with its contents changed, behind some slots. -/
def behind (pool : Pool α) (front : Array (PoolSlot α)) (change : α → α) : Pool α :=
  ⟨front ++ pool.slots.map (PoolSlot.map change), pool.vacant.map (· + front.size)⟩

variable {pool : Pool α} {front : Array (PoolSlot α)} {change : α → α} {ticket : Ticket}

theorem getElem?_behind
    (index : Nat) :
    (pool.behind front change).slots[index + front.size]? =
      pool.slots[index]?.map (PoolSlot.map change) := by
  rw [behind, Array.getElem?_append_right (Nat.le_add_left _ _), Nat.add_sub_cancel,
    Array.getElem?_map]

@[simp] theorem get?_behind :
    (pool.behind front change).get? (ticket.behind front.size) =
      (pool.get? ticket).map change := by
  rw [get?, slot?, Ticket.behind, getElem?_behind, get?, slot?]
  cases pool.slots[ticket.index]? with
  | none => rfl
  | some slot =>
      simp only [Option.map_some, Option.filter_some, PoolSlot.map]
      split <;> rfl

/-- The contents in front are found under their own tickets. -/
theorem get?_front
    {content : α}
    (atSlot : front[ticket.index]? = some ⟨ticket.generation, some content⟩) :
    (pool.behind front change).get? ticket = some content := by
  have inFront := (Array.getElem?_eq_some_iff.mp atSlot).1
  rw [get?, slot?, behind, Array.getElem?_append_left inFront, atSlot, Option.filter_some]
  simp

/-- A content in front is changed in its own place. -/
theorem modify_front
    {content : α}
    (atSlot : front[ticket.index]? = some ⟨ticket.generation, some content⟩)
    (edit : α → α) :
    (pool.behind front change).modify ticket edit =
      pool.behind (front.setIfInBounds ticket.index ⟨ticket.generation, some (edit content)⟩)
        change := by
  have inFront := (Array.getElem?_eq_some_iff.mp atSlot).1
  rw [modify, get?_front atSlot]
  simp only [behind, Array.setIfInBounds_append_left inFront, Array.size_setIfInBounds]

theorem setIfInBounds_behind
    (index : Nat)
    (slot : PoolSlot α) :
    (pool.behind front change).slots.setIfInBounds (index + front.size) (slot.map change) =
      front ++ (pool.slots.setIfInBounds index slot).map (PoolSlot.map change) := by
  rw [behind, Array.setIfInBounds_append_right (Nat.le_add_left _ _), Nat.add_sub_cancel,
    Array.map_setIfInBounds]

@[simp] theorem contains_behind :
    (pool.behind front change).contains (ticket.behind front.size) = pool.contains ticket := by
  rw [contains, get?_behind, Option.isSome_map, contains]

theorem insert_behind
    (content : α) :
    (pool.behind front change).insert (change content) =
      ((pool.insert content).1.behind front change, (pool.insert content).2.behind front.size) := by
  obtain ⟨slots, vacant⟩ := pool
  cases vacant with
  | nil =>
      simp [insert, behind, Ticket.behind, PoolSlot.map, Nat.add_comm]
  | cons index rest =>
      have sameSlot : ∀ generation,
          (Pool.behind ⟨slots, index :: rest⟩ front change).slots.setIfInBounds
              (index + front.size) ⟨generation, some (change content)⟩ =
            front ++ (slots.setIfInBounds index ⟨generation, some content⟩).map
              (PoolSlot.map change) :=
        fun generation => setIfInBounds_behind index ⟨generation, some content⟩
      have sameGeneration :
          ((Pool.behind ⟨slots, index :: rest⟩ front change).slots[index + front.size]?.map
              PoolSlot.generation) = slots[index]?.map PoolSlot.generation := by
        rw [getElem?_behind, Option.map_map]
        rfl
      simp only [insert, behind, List.map_cons]
      simp only [behind] at sameSlot sameGeneration
      rw [sameGeneration, sameSlot]
      rfl

theorem modify_behind
    {edit other : α → α}
    (same : ∀ content, other (change content) = change (edit content)) :
    (pool.behind front change).modify (ticket.behind front.size) other =
      (pool.modify ticket edit).behind front change := by
  rw [modify, get?_behind, modify]
  cases pool.get? ticket with
  | none => rfl
  | some content =>
      simp only [Option.map_some, same]
      rw [behind, Pool.mk.injEq]
      exact ⟨setIfInBounds_behind ticket.index ⟨ticket.generation, some (edit content)⟩, rfl⟩

theorem take_behind :
    (pool.behind front change).take (ticket.behind front.size) =
      (pool.take ticket).map fun taken => (change taken.1, taken.2.behind front change) := by
  rw [take, get?_behind, take, Option.map_map, Option.map_map]
  refine congrArg (fun tell => Option.map tell (pool.get? ticket)) (funext fun content => ?_)
  simp only [Function.comp_apply, Prod.mk.injEq, true_and]
  rw [behind, Pool.mk.injEq]
  exact ⟨setIfInBounds_behind ticket.index ⟨ticket.generation + 1, none⟩, rfl⟩

end Pool

end Pools

/-- The rank of a node with a later number, created under a later one. -/
def Rank.later (nodes numbers : Nat) (rank : Rank) : Rank :=
  ⟨rank.main + nodes, rank.created + numbers⟩

theorem Rank.later_zero
    (numbers : Nat)
    (rank : Rank) :
    rank.later 0 numbers = ⟨rank.main, rank.created + numbers⟩ := by
  simp [Rank.later]

namespace StateIndex

/-- An index of relocated states. -/
def relocate (index : StateIndex) (nodes numbers places : Nat) : StateIndex :=
  index.map fun entry => (entry.1.later nodes numbers, entry.2.behind places)

variable {nodes numbers places : Nat} {index : StateIndex} {rank other : Rank} {ticket : Ticket}

theorem later_inj : rank.later nodes numbers = other.later nodes numbers ↔ rank = other := by
  cases rank
  cases other
  simp [Rank.later]

theorem before_later :
    (rank.later nodes numbers).before (other.later nodes numbers) = rank.before other := by
  have sameMain : (rank.main + (nodes : Int) == other.main + nodes) = (rank.main == other.main) := by
    simp [Bool.beq_eq_decide_eq]
  simp [Rank.before, Rank.later, sameMain]

theorem insert_relocate :
    StateIndex.insert (index.relocate nodes numbers places) (rank.later nodes numbers)
        (ticket.behind places) =
      (StateIndex.insert index rank ticket).relocate nodes numbers places := by
  induction index with
  | nil => rfl
  | cons entry rest inductionHypothesis =>
      obtain ⟨first, held⟩ := entry
      simp only [relocate, List.map_cons, StateIndex.insert, before_later, later_inj]
      simp only [relocate] at inductionHypothesis
      split
      next => rfl
      next =>
          split
          next => rfl
          next => rw [inductionHypothesis, List.map_cons]

theorem erase_relocate :
    StateIndex.erase (index.relocate nodes numbers places) (rank.later nodes numbers) =
      (StateIndex.erase index rank).relocate nodes numbers places := by
  rw [StateIndex.erase, relocate, List.filter_map, StateIndex.erase, relocate]
  refine congrArg _ (List.filter_congr fun entry _ => ?_)
  simp [Bool.beq_eq_decide_eq, bne, later_inj]

theorem contains_relocate :
    StateIndex.contains (index.relocate nodes numbers places) (rank.later nodes numbers) =
      StateIndex.contains index rank := by
  rw [StateIndex.contains, relocate, List.any_map, StateIndex.contains]
  refine congrArg _ (funext fun entry => ?_)
  simp [Bool.beq_eq_decide_eq, later_inj]

end StateIndex

/-- An operand with another ticket for its state. -/
def Conjunct.rename (tell : Ticket → Ticket) (operand : Conjunct) : Conjunct :=
  ⟨operand.state.map tell, operand.bindings⟩

namespace Progress

/-- A progress with other tickets for the operands. -/
def rename (tell : Ticket → Ticket) : Progress → Progress
  | filter => filter
  | timer deadline => timer deadline
  | every child => every (child.map tell)
  | sequence left rights => sequence (left.map tell) (rights.map tell)
  | alternation children => alternation (children.map tell)
  | conjunction operands => conjunction (operands.map (Conjunct.rename tell))
  | repetition child rounds collected => repetition (child.map tell) rounds collected
  | negation child => negation (child.map tell)
  | within child deadline held => within (child.map tell) deadline held
  | guarded child => guarded (child.map tell)

variable {tell : Ticket → Ticket} {progress : Progress}

theorem children_rename : (progress.rename tell).children = progress.children.map tell := by
  cases progress with
  | conjunction operands =>
      simp only [rename, children, List.filterMap_map, List.map_filterMap]
      rfl
  | sequence left rights =>
      cases left <;> simp [rename, children]
  | every child => cases child <;> rfl
  | repetition child _ _ => cases child <;> rfl
  | negation child => cases child <;> rfl
  | within child _ _ => cases child <;> rfl
  | guarded child => cases child <;> rfl
  | _ => rfl

end Progress

/-- A node whose operands have other numbers. -/
def PatternNode.renumber (tell : Nat → Nat) : PatternNode → PatternNode
  | .filter eventType slot predicate => .filter eventType slot predicate
  | .every child => .every (tell child)
  | .sequence left right => .sequence (tell left) (tell right)
  | .alternation operands => .alternation (operands.map tell)
  | .conjunction operands => .conjunction (operands.map tell)
  | .repetition child least most innerSlots => .repetition (tell child) least most innerSlots
  | .negation child => .negation (tell child)
  | .within child duration absence => .within (tell child) duration absence
  | .guarded child guard => .guarded (tell child) guard
  | .timer duration => .timer duration

theorem Progress.initial_renumber
    {renumber : Nat → Nat}
    {tell : Ticket → Ticket}
    (now : Int)
    (bindings : Row)
    (node : PatternNode) :
    Progress.initial now bindings (node.renumber renumber) =
      (Progress.initial now bindings node).rename tell := by
  cases node <;> rfl

end EventQuery
