namespace EventQuery

/-!
# Pools with tickets

A pool holds contents and hands out a ticket for each.  Slots are used again after their content is
taken out, under the next generation, so that a ticket finds its own content or nothing.
-/

/-- The claim on one content of a pool. -/
structure Ticket where
  index : Nat
  generation : Nat
  deriving DecidableEq, Repr, Inhabited

/-- One slot of a pool: what it holds, and how often it was emptied. -/
structure PoolSlot (α : Type) where
  generation : Nat
  content : Option α

/-- Contents in slots, with the slots that stand empty, the latest emptied first. -/
structure Pool (α : Type) where
  slots : Array (PoolSlot α)
  vacant : List Nat

namespace PoolSlot

variable {α : Type}

/-- Whether a slot holds something. -/
def isOccupied (slot : PoolSlot α) : Bool := slot.content.isSome

/-- The slot after its content is taken out. -/
def emptied (slot : PoolSlot α) : PoolSlot α := ⟨slot.generation + 1, none⟩

end PoolSlot

namespace Pool

variable {α : Type}

/-- The pool that holds nothing. -/
def empty : Pool α := ⟨#[], []⟩

/-- The number of contents. -/
def size (pool : Pool α) : Nat := pool.slots.countP PoolSlot.isOccupied

/-- The slot of a ticket, as long as its generation is the current one. -/
def slot? (pool : Pool α) (ticket : Ticket) : Option (PoolSlot α) :=
  pool.slots[ticket.index]?.filter fun slot => slot.generation == ticket.generation

/-- The content of a ticket. -/
def get? (pool : Pool α) (ticket : Ticket) : Option α := (pool.slot? ticket).bind PoolSlot.content

/-- Whether a ticket finds its content. -/
def contains (pool : Pool α) (ticket : Ticket) : Bool := (pool.get? ticket).isSome

/-- Put in a content, in the slot emptied last or else in a new one. -/
def insert (pool : Pool α) (content : α) : Pool α × Ticket :=
  match pool.vacant with
  | [] => (⟨pool.slots.push ⟨0, some content⟩, []⟩, ⟨pool.slots.size, 0⟩)
  | index :: rest =>
      let generation := (pool.slots[index]?.map PoolSlot.generation).getD 0
      (⟨pool.slots.setIfInBounds index ⟨generation, some content⟩, rest⟩, ⟨index, generation⟩)

/-- Change the content of a ticket. -/
def modify (pool : Pool α) (ticket : Ticket) (change : α → α) : Pool α :=
  match pool.get? ticket with
  | none => pool
  | some content =>
      { pool with
        slots := pool.slots.setIfInBounds ticket.index
          ⟨ticket.generation, some (change content)⟩ }

/-- Take out the content of a ticket. -/
def take (pool : Pool α) (ticket : Ticket) : Option (α × Pool α) :=
  (pool.get? ticket).map fun content =>
    (content,
      ⟨pool.slots.setIfInBounds ticket.index ⟨ticket.generation + 1, none⟩,
        ticket.index :: pool.vacant⟩)

/-- Take out everything. -/
def clear (pool : Pool α) : Pool α :=
  let occupied := (List.range pool.slots.size).filter fun index =>
    (pool.slots[index]?.map PoolSlot.isOccupied).getD false
  ⟨pool.slots.map fun slot => if slot.isOccupied then slot.emptied else slot,
    occupied.reverse ++ pool.vacant⟩

/-- A ticket that finds a content names an occupied slot of its generation. -/
theorem slot_of_get? {pool : Pool α} {ticket : Ticket} {content : α}
    (found : pool.get? ticket = some content) :
    pool.slots[ticket.index]? = some ⟨ticket.generation, some content⟩ := by
  simp only [get?, slot?, Option.bind_eq_some_iff, Option.filter_eq_some_iff] at found
  obtain ⟨⟨generation, held⟩, ⟨atIndex, current⟩, holds⟩ := found
  simp only [beq_iff_eq] at current
  subst current
  simp only at holds
  subst holds
  exact atIndex

/-- Taking a content out leaves one content less. -/
theorem size_of_take {pool rest : Pool α} {ticket : Ticket} {content : α}
    (taken : pool.take ticket = some (content, rest)) : rest.size + 1 = pool.size := by
  simp only [take, Option.map_eq_some_iff, Prod.mk.injEq] at taken
  obtain ⟨held, found, _, remains⟩ := taken
  obtain ⟨inRange, holds⟩ := Array.getElem?_eq_some_iff.mp (slot_of_get? found)
  subst remains
  have occupied : pool.slots[ticket.index].isOccupied = true := by
    simp [holds, PoolSlot.isOccupied]
  have present : 0 < pool.slots.countP PoolSlot.isOccupied :=
    Array.countP_pos_iff.mpr ⟨_, Array.getElem_mem inRange, occupied⟩
  have vacated : PoolSlot.isOccupied (⟨ticket.generation + 1, none⟩ : PoolSlot α) = false := rfl
  simp only [size, Array.setIfInBounds, inRange, ↓reduceDIte, Array.countP_set, occupied, vacated]
  simp only [↓reduceIte, Bool.false_eq_true]
  omega

end Pool

end EventQuery
