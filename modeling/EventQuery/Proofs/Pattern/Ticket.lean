import EventQuery.Pattern.Pool
import Mathlib.Data.List.Nodup

namespace EventQuery

/-!
# Contents behind tickets

A sound pool answers for its tickets like a finite map: putting a content in adds one entry,
changing a content touches one entry, and taking a content out ends one entry.  The ticket of a
content that was taken out is spent, and nothing is ever found under it again.
-/

variable {α : Type}

theorem Ticket.eq_iff
    {first second : Ticket} :
    first = second ↔ first.index = second.index ∧ first.generation = second.generation := by
  rcases first with ⟨index, generation⟩
  rcases second with ⟨index', generation'⟩
  simp only [Ticket.mk.injEq]

/-- The number of tickets that ever named a slot: one for each content that was taken out of it, and
one for the content it holds. -/
def PoolSlot.tickets (slot : PoolSlot α) : Nat :=
  slot.generation + slot.content.isSome.toNat

namespace Pool

/-- The slots that are used next stand empty, and each of them is used once. -/
structure Sound (pool : Pool α) : Prop where
  vacantNodup : pool.vacant.Nodup
  vacantEmpty :
    ∀ index ∈ pool.vacant,
      ∃ generation, pool.slots[index]? = some ⟨generation, none⟩

/-- The content of a ticket was taken out: its slot has come to a later generation. -/
def Spent (pool : Pool α) (ticket : Ticket) : Prop :=
  ∃ slot, pool.slots[ticket.index]? = some slot ∧ ticket.generation < slot.generation

/-- A ticket was handed out: it finds its content or is spent. -/
def Issued (pool : Pool α) (ticket : Ticket) : Prop :=
  (∃ content, pool.get? ticket = some content) ∨ pool.Spent ticket

/-- The number of tickets that ever named the slot at a place. -/
def ticketsOf (pool : Pool α) (index : Nat) : Nat :=
  (pool.slots[index]?.map PoolSlot.tickets).getD 0

/-- The number of contents of a kind. -/
def count (pool : Pool α) (kind : α → Bool) : Nat :=
  pool.slots.countP fun slot => slot.content.any kind

theorem get?_eq_some_iff
    {pool : Pool α}
    {ticket : Ticket}
    {content : α} :
    pool.get? ticket = some content ↔
      pool.slots[ticket.index]? = some ⟨ticket.generation, some content⟩ := by
  constructor
  · exact slot_of_get?
  · intro atIndex
    simp [get?, slot?, atIndex, Option.filter]

theorem Spent.get?_eq_none
    {pool : Pool α}
    {ticket : Ticket}
    (spent : pool.Spent ticket) :
    pool.get? ticket = none := by
  obtain ⟨slot, atIndex, later⟩ := spent
  rw [Option.eq_none_iff_forall_not_mem]
  intro content found
  rw [Option.mem_def, get?_eq_some_iff, atIndex] at found
  cases found
  exact Nat.lt_irrefl _ later

/-- The spent tickets are those that were handed out and find nothing. -/
theorem spent_iff
    {pool : Pool α}
    {ticket : Ticket} :
    pool.Spent ticket ↔ pool.Issued ticket ∧ pool.get? ticket = none := by
  constructor
  · intro spent
    exact ⟨.inr spent, spent.get?_eq_none⟩
  · rintro ⟨⟨content, found⟩ | spent, absent⟩
    · rw [absent] at found
      cases found
    · exact spent

/-- A ticket was handed out exactly when it is among the tickets of its slot. -/
theorem issued_iff_lt
    {pool : Pool α}
    {ticket : Ticket} :
    pool.Issued ticket ↔ ticket.generation < pool.ticketsOf ticket.index := by
  rcases ticket with ⟨index, generation⟩
  simp only [Issued, Spent, get?_eq_some_iff, ticketsOf]
  cases pool.slots[index]? with
  | none => simp
  | some slot =>
      rcases slot with ⟨current, content⟩
      cases content with
      | none => simp [PoolSlot.tickets]
      | some content =>
          simp only [PoolSlot.tickets, Option.some.injEq, PoolSlot.mk.injEq, exists_and_left,
            exists_eq', and_true, exists_eq_left', Option.map_some, Option.getD_some,
            Option.isSome_some, Bool.toNat_true]
          omega

theorem size_eq_count
    (pool : Pool α) :
    pool.size = pool.count fun _ => true := by
  simp only [size, count, Option.any_true]
  rfl

/-- A pool without vacant slots is sound. -/
theorem sound_of_full
    {pool : Pool α}
    (full : pool.vacant = []) :
    pool.Sound where
  vacantNodup := full ▸ List.nodup_nil
  vacantEmpty := by
    intro index member
    simp [full] at member

@[simp] theorem get?_empty
    (ticket : Ticket) :
    (empty : Pool α).get? ticket = none := by
  simp [empty, get?, slot?]

section Insert

variable {pool : Pool α}

private theorem insert_of_full
    (full : pool.vacant = [])
    (content : α) :
    pool.insert content =
      (⟨pool.slots.push ⟨0, some content⟩, []⟩, ⟨pool.slots.size, 0⟩) := by
  simp only [insert, full]

private theorem insert_of_vacant
    {next generation : Nat}
    {rest : List Nat}
    (vacant : pool.vacant = next :: rest)
    (atNext : pool.slots[next]? = some ⟨generation, none⟩)
    (content : α) :
    pool.insert content =
      (⟨pool.slots.setIfInBounds next ⟨generation, some content⟩, rest⟩,
        ⟨next, generation⟩) := by
  simp only [insert, vacant, atNext, Option.map_some, Option.getD_some]

/-- The latest emptied slot is used, and a new one when none is empty. -/
theorem vacant_insert
    (pool : Pool α)
    (content : α) :
    pool.vacant = [] ∧ (pool.insert content).1.vacant = [] ∨
      pool.vacant = (pool.insert content).2.index :: (pool.insert content).1.vacant := by
  cases vacant : pool.vacant with
  | nil => exact .inl ⟨rfl, by simp only [insert, vacant]⟩
  | cons next rest => exact .inr (by simp only [insert, vacant])

/-- The slot that is used next holds nothing yet, and its generation is the one of the new ticket. -/
theorem slot_before_insert
    (sound : pool.Sound)
    (content : α) :
    pool.slots[(pool.insert content).2.index]? = none ∧ (pool.insert content).2.generation = 0 ∨
      pool.slots[(pool.insert content).2.index]? =
        some ⟨(pool.insert content).2.generation, none⟩ := by
  cases vacant : pool.vacant with
  | nil =>
      rw [insert_of_full vacant]
      simp
  | cons next rest =>
      obtain ⟨current, atNext⟩ := sound.vacantEmpty next (by simp [vacant])
      rw [insert_of_vacant vacant atNext]
      exact .inr atNext

/-- The slots after a content was put in: its slot is occupied, and the others are the same. -/
theorem slots_insert
    (sound : pool.Sound)
    (content : α)
    (index : Nat) :
    (pool.insert content).1.slots[index]? =
      if index = (pool.insert content).2.index then
        some ⟨(pool.insert content).2.generation, some content⟩
      else pool.slots[index]? := by
  cases vacant : pool.vacant with
  | nil =>
      rw [insert_of_full vacant]
      simp [Array.getElem?_push]
  | cons next rest =>
      obtain ⟨current, atNext⟩ := sound.vacantEmpty next (by simp [vacant])
      obtain ⟨inRange, _⟩ := Array.getElem?_eq_some_iff.mp atNext
      rw [insert_of_vacant vacant atNext]
      by_cases same : index = next
      · subst same
        simp only [Array.getElem?_setIfInBounds_self_of_lt inRange, ↓reduceIte]
      · simp only [Array.getElem?_setIfInBounds_ne (Ne.symm same), same, ↓reduceIte]

/-- A content is found under its new ticket, and every other ticket finds what it found before. -/
theorem get?_insert
    (sound : pool.Sound)
    (content : α)
    (ticket : Ticket) :
    (pool.insert content).1.get? ticket =
      if ticket = (pool.insert content).2 then some content else pool.get? ticket := by
  have before := slot_before_insert sound content
  have after := slots_insert sound content ticket.index
  generalize pool.insert content = result at before after ⊢
  rcases result with ⟨grown, ⟨next, current⟩⟩
  rcases ticket with ⟨index, generation⟩
  apply Option.ext
  intro found
  rw [get?_eq_some_iff, after]
  by_cases sameIndex : index = next
  · subst sameIndex
    by_cases agree : generation = current
    · simp [agree]
    · rcases before with ⟨absent, _⟩ | empty
      · simp [get?_eq_some_iff, agree, absent, Ne.symm agree]
      · simp [get?_eq_some_iff, agree, empty, Ne.symm agree]
  · simp [get?_eq_some_iff, sameIndex]

/-- Putting a content in makes its ticket the next one of its slot. -/
theorem generation_insert
    (sound : pool.Sound)
    (content : α) :
    (pool.insert content).2.generation = pool.ticketsOf (pool.insert content).2.index := by
  rcases slot_before_insert sound content with ⟨absent, first⟩ | empty
  · simp [ticketsOf, absent, first]
  · simp [ticketsOf, empty, PoolSlot.tickets]

theorem ticketsOf_insert
    (sound : pool.Sound)
    (content : α)
    (index : Nat) :
    (pool.insert content).1.ticketsOf index =
      if index = (pool.insert content).2.index then pool.ticketsOf index + 1
      else pool.ticketsOf index := by
  rw [ticketsOf, slots_insert sound]
  split
  next same =>
    subst same
    rw [← generation_insert sound]
    rfl
  next => rfl

/-- Exactly the tickets handed out before and the new ticket were handed out. -/
theorem issued_insert_iff
    {ticket : Ticket}
    (sound : pool.Sound)
    (content : α) :
    (pool.insert content).1.Issued ticket ↔
      pool.Issued ticket ∨ ticket = (pool.insert content).2 := by
  have next := generation_insert sound content
  rw [issued_iff_lt, issued_iff_lt, ticketsOf_insert sound, Ticket.eq_iff]
  split
  next same =>
    rw [same, next]
    simp only [true_and]
    omega
  next other => simp only [other, false_and, or_false]

theorem not_issued_insert
    (sound : pool.Sound)
    (content : α) :
    ¬pool.Issued (pool.insert content).2 := by
  rw [issued_iff_lt, ← generation_insert sound]
  exact Nat.lt_irrefl _

theorem Sound.insert
    (sound : pool.Sound)
    (content : α) :
    (pool.insert content).1.Sound := by
  rcases vacant_insert pool content with ⟨_, full⟩ | vacant
  · exact sound_of_full full
  · have distinct := sound.vacantNodup
    rw [vacant, List.nodup_cons] at distinct
    refine ⟨distinct.2, ?_⟩
    intro index member
    have different : index ≠ (pool.insert content).2.index := fun same => distinct.1 (same ▸ member)
    obtain ⟨generation, atIndex⟩ :=
      sound.vacantEmpty index (by rw [vacant]; exact List.mem_cons_of_mem _ member)
    exact ⟨generation, by rw [slots_insert sound, if_neg different]; exact atIndex⟩

theorem Spent.insert
    {ticket : Ticket}
    (sound : pool.Sound)
    (spent : pool.Spent ticket)
    (content : α) :
    (pool.insert content).1.Spent ticket := by
  obtain ⟨slot, atIndex, later⟩ := spent
  by_cases same : ticket.index = (pool.insert content).2.index
  · refine ⟨_, (slots_insert sound content _).trans (if_pos same), ?_⟩
    rcases slot_before_insert sound content with ⟨absent, _⟩ | empty
    · rw [same, absent] at atIndex
      cases atIndex
    · rw [same, empty] at atIndex
      cases atIndex
      exact later
  · exact ⟨slot, by rw [slots_insert sound, if_neg same]; exact atIndex, later⟩

theorem Issued.insert
    {ticket : Ticket}
    (sound : pool.Sound)
    (content : α)
    (issued : pool.Issued ticket ∨ ticket = (pool.insert content).2) :
    (pool.insert content).1.Issued ticket :=
  (issued_insert_iff sound content).mpr issued

theorem count_insert
    (sound : pool.Sound)
    (content : α)
    (kind : α → Bool) :
    (pool.insert content).1.count kind =
      pool.count kind + if kind content then 1 else 0 := by
  cases vacant : pool.vacant with
  | nil =>
      rw [insert_of_full vacant]
      simp [count, Array.countP_push]
  | cons next rest =>
      obtain ⟨current, atNext⟩ := sound.vacantEmpty next (by simp [vacant])
      obtain ⟨inRange, holds⟩ := Array.getElem?_eq_some_iff.mp atNext
      rw [insert_of_vacant vacant atNext]
      simp [count, Array.setIfInBounds, inRange, Array.countP_set, holds]

end Insert

section Modify

variable {pool : Pool α}

theorem modify_of_none
    {ticket : Ticket}
    (absent : pool.get? ticket = none)
    (change : α → α) :
    pool.modify ticket change = pool := by
  simp only [modify, absent]

private theorem modify_of_some
    {ticket : Ticket}
    {content : α}
    (found : pool.get? ticket = some content)
    (change : α → α) :
    pool.modify ticket change =
      { pool with
        slots := pool.slots.setIfInBounds ticket.index
          ⟨ticket.generation, some (change content)⟩ } := by
  simp only [modify, found]

@[simp] theorem vacant_modify
    (pool : Pool α)
    (ticket : Ticket)
    (change : α → α) :
    (pool.modify ticket change).vacant = pool.vacant := by
  cases present : pool.get? ticket with
  | none => rw [modify_of_none present]
  | some content => rw [modify_of_some present]

theorem slots_modify
    {ticket : Ticket}
    {content : α}
    (found : pool.get? ticket = some content)
    (change : α → α)
    (index : Nat) :
    (pool.modify ticket change).slots[index]? =
      if index = ticket.index then some ⟨ticket.generation, some (change content)⟩
      else pool.slots[index]? := by
  obtain ⟨inRange, _⟩ := Array.getElem?_eq_some_iff.mp (get?_eq_some_iff.mp found)
  rw [modify_of_some found]
  by_cases same : index = ticket.index
  · subst same
    simp only [Array.getElem?_setIfInBounds_self_of_lt inRange, ↓reduceIte]
  · simp only [Array.getElem?_setIfInBounds_ne (Ne.symm same), same, ↓reduceIte]

@[simp] theorem get?_modify
    (pool : Pool α)
    (changed : Ticket)
    (change : α → α)
    (ticket : Ticket) :
    (pool.modify changed change).get? ticket =
      if ticket = changed then (pool.get? ticket).map change else pool.get? ticket := by
  cases present : pool.get? changed with
  | none =>
      rw [modify_of_none present]
      by_cases same : ticket = changed
      · simp [same, present]
      · simp [same]
  | some content =>
      rcases ticket with ⟨index, generation⟩
      apply Option.ext
      intro found
      rw [get?_eq_some_iff, slots_modify present]
      have atIndex := get?_eq_some_iff.mp present
      by_cases sameIndex : index = changed.index
      · subst sameIndex
        by_cases sameGeneration : generation = changed.generation
        · subst sameGeneration
          simp [present]
        · have different : (⟨changed.index, generation⟩ : Ticket) ≠ changed := by
            intro same
            exact sameGeneration (congrArg Ticket.generation same)
          simp [different, get?_eq_some_iff, atIndex, Ne.symm sameGeneration]
      · have different : (⟨index, generation⟩ : Ticket) ≠ changed := by
          intro same
          exact sameIndex (congrArg Ticket.index same)
        simp [different, get?_eq_some_iff, sameIndex]

theorem Sound.modify
    (sound : pool.Sound)
    (ticket : Ticket)
    (change : α → α) :
    (pool.modify ticket change).Sound := by
  cases present : pool.get? ticket with
  | none =>
      rw [modify_of_none present]
      exact sound
  | some content =>
      refine ⟨?_, ?_⟩
      · rw [vacant_modify]
        exact sound.vacantNodup
      · intro index member
        rw [vacant_modify] at member
        obtain ⟨generation, atIndex⟩ := sound.vacantEmpty index member
        refine ⟨generation, ?_⟩
        rw [slots_modify present, ← atIndex]
        apply if_neg
        intro same
        subst same
        rw [get?_eq_some_iff.mp present] at atIndex
        cases atIndex

theorem Spent.modify
    {ticket : Ticket}
    (spent : pool.Spent ticket)
    (changed : Ticket)
    (change : α → α) :
    (pool.modify changed change).Spent ticket := by
  cases present : pool.get? changed with
  | none =>
      rw [modify_of_none present]
      exact spent
  | some content =>
      obtain ⟨slot, atIndex, later⟩ := spent
      by_cases same : ticket.index = changed.index
      · refine ⟨⟨changed.generation, some (change content)⟩, ?_, ?_⟩
        · simp only [slots_modify present, same, ↓reduceIte]
        · rw [same, get?_eq_some_iff.mp present] at atIndex
          cases atIndex
          exact later
      · refine ⟨slot, ?_, later⟩
        simpa only [slots_modify present, same, ↓reduceIte] using atIndex

@[simp] theorem ticketsOf_modify
    (ticket : Ticket)
    (change : α → α)
    (index : Nat) :
    (pool.modify ticket change).ticketsOf index = pool.ticketsOf index := by
  cases present : pool.get? ticket with
  | none =>
      rw [modify_of_none present]
  | some content =>
      rw [ticketsOf, slots_modify present]
      split
      next same =>
        subst same
        simp [ticketsOf, get?_eq_some_iff.mp present, PoolSlot.tickets]
      next => rfl

theorem Issued.modify
    {ticket : Ticket}
    (issued : pool.Issued ticket)
    (changed : Ticket)
    (change : α → α) :
    (pool.modify changed change).Issued ticket := by
  rw [issued_iff_lt, ticketsOf_modify]
  exact issued_iff_lt.mp issued

theorem count_modify
    (ticket : Ticket)
    (change : α → α)
    (kind : α → Bool)
    (kept : ∀ content, pool.get? ticket = some content → kind (change content) = kind content) :
    (pool.modify ticket change).count kind = pool.count kind := by
  cases present : pool.get? ticket with
  | none =>
      rw [modify_of_none present]
  | some content =>
      obtain ⟨inRange, holds⟩ := Array.getElem?_eq_some_iff.mp (get?_eq_some_iff.mp present)
      have same := kept content present
      rw [modify_of_some present]
      by_cases counted : kind content = true
      · have positive : 0 < pool.slots.countP fun slot => slot.content.any kind :=
          Array.countP_pos_iff.mpr
            ⟨_, Array.getElem_mem inRange, by simp [holds, counted]⟩
        simp [count, Array.setIfInBounds, inRange, Array.countP_set, holds, same, counted]
        omega
      · simp [count, Array.setIfInBounds, inRange, Array.countP_set, holds, same, counted]

end Modify

section Take

variable {pool rest : Pool α} {taken : Ticket} {content : α}

theorem get?_of_take
    (took : pool.take taken = some (content, rest)) :
    pool.get? taken = some content := by
  simp only [take, Option.map_eq_some_iff, Prod.mk.injEq] at took
  obtain ⟨held, found, same, _⟩ := took
  exact same ▸ found

/-- A content that is found can be taken out. -/
theorem exists_take
    (found : pool.get? taken = some content) :
    ∃ rest, pool.take taken = some (content, rest) := by
  simp [take, found]

/-- Nothing is taken out exactly when nothing is found. -/
theorem take_eq_none_iff :
    pool.take taken = none ↔ pool.get? taken = none := by
  simp [take]

/-- The pool without the content of one ticket. -/
theorem rest_of_take
    (took : pool.take taken = some (content, rest)) :
    rest =
      ⟨pool.slots.setIfInBounds taken.index ⟨taken.generation + 1, none⟩,
        taken.index :: pool.vacant⟩ := by
  simp only [take, Option.map_eq_some_iff, Prod.mk.injEq] at took
  obtain ⟨_, _, _, same⟩ := took
  exact same.symm

theorem vacant_of_take
    (took : pool.take taken = some (content, rest)) :
    rest.vacant = taken.index :: pool.vacant :=
  congrArg vacant (rest_of_take took)

/-- The slots after a content was taken out: its slot is empty and one generation further. -/
theorem slots_of_take
    (took : pool.take taken = some (content, rest))
    (index : Nat) :
    rest.slots[index]? =
      if index = taken.index then some ⟨taken.generation + 1, none⟩ else pool.slots[index]? := by
  obtain ⟨inRange, _⟩ :=
    Array.getElem?_eq_some_iff.mp (get?_eq_some_iff.mp (get?_of_take took))
  rw [rest_of_take took]
  by_cases same : index = taken.index
  · subst same
    simp only [Array.getElem?_setIfInBounds_self_of_lt inRange, ↓reduceIte]
  · simp only [Array.getElem?_setIfInBounds_ne (Ne.symm same), same, ↓reduceIte]

theorem get?_take
    (took : pool.take taken = some (content, rest))
    (ticket : Ticket) :
    rest.get? ticket = if ticket = taken then none else pool.get? ticket := by
  have atTaken := get?_eq_some_iff.mp (get?_of_take took)
  rcases ticket with ⟨index, generation⟩
  apply Option.ext
  intro found
  rw [get?_eq_some_iff, slots_of_take took]
  by_cases sameIndex : index = taken.index
  · subst sameIndex
    by_cases sameGeneration : generation = taken.generation
    · subst sameGeneration
      simp
    · have different : (⟨taken.index, generation⟩ : Ticket) ≠ taken := by
        intro same
        exact sameGeneration (congrArg Ticket.generation same)
      simp [different, get?_eq_some_iff, atTaken, Ne.symm sameGeneration]
  · have different : (⟨index, generation⟩ : Ticket) ≠ taken := by
      intro same
      exact sameIndex (congrArg Ticket.index same)
    simp [different, get?_eq_some_iff, sameIndex]

/-- The ticket of a content that was taken out is spent. -/
theorem spent_of_take
    (took : pool.take taken = some (content, rest)) :
    rest.Spent taken :=
  ⟨⟨taken.generation + 1, none⟩, by rw [slots_of_take took, if_pos rfl], Nat.lt_succ_self _⟩

theorem Spent.take
    {ticket : Ticket}
    (spent : pool.Spent ticket)
    (took : pool.take taken = some (content, rest)) :
    rest.Spent ticket := by
  obtain ⟨slot, atIndex, later⟩ := spent
  by_cases same : ticket.index = taken.index
  · refine ⟨⟨taken.generation + 1, none⟩, by rw [slots_of_take took, if_pos same], ?_⟩
    rw [same, get?_eq_some_iff.mp (get?_of_take took)] at atIndex
    cases atIndex
    exact Nat.lt_succ_of_lt later
  · exact ⟨slot, by rw [slots_of_take took, if_neg same]; exact atIndex, later⟩

/-- Taking a content out leaves the tickets of every slot. -/
theorem ticketsOf_take
    (took : pool.take taken = some (content, rest))
    (index : Nat) :
    rest.ticketsOf index = pool.ticketsOf index := by
  rw [ticketsOf, slots_of_take took]
  split
  next same =>
    subst same
    simp [ticketsOf, get?_eq_some_iff.mp (get?_of_take took), PoolSlot.tickets]
  next => rfl

theorem Issued.take
    {ticket : Ticket}
    (issued : pool.Issued ticket)
    (took : pool.take taken = some (content, rest)) :
    rest.Issued ticket := by
  rw [issued_iff_lt, ticketsOf_take took]
  exact issued_iff_lt.mp issued

theorem Sound.take
    (sound : pool.Sound)
    (took : pool.take taken = some (content, rest)) :
    rest.Sound := by
  have atTaken := get?_eq_some_iff.mp (get?_of_take took)
  have occupied : taken.index ∉ pool.vacant := by
    intro member
    obtain ⟨generation, atIndex⟩ := sound.vacantEmpty _ member
    rw [atTaken] at atIndex
    cases atIndex
  refine ⟨?_, ?_⟩
  · rw [vacant_of_take took]
    exact List.nodup_cons.mpr ⟨occupied, sound.vacantNodup⟩
  · intro index member
    rw [slots_of_take took]
    by_cases same : index = taken.index
    · exact ⟨taken.generation + 1, if_pos same⟩
    · rw [vacant_of_take took] at member
      obtain ⟨generation, atIndex⟩ :=
        sound.vacantEmpty index ((List.mem_cons.mp member).resolve_left same)
      exact ⟨generation, by rw [if_neg same]; exact atIndex⟩

/-- Taking a content out takes it out of the number of its kind. -/
theorem count_take
    (took : pool.take taken = some (content, rest))
    (kind : α → Bool) :
    (rest.count kind + if kind content then 1 else 0) = pool.count kind := by
  obtain ⟨inRange, holds⟩ :=
    Array.getElem?_eq_some_iff.mp (get?_eq_some_iff.mp (get?_of_take took))
  rw [rest_of_take took]
  by_cases counted : kind content = true
  · have positive : 0 < pool.slots.countP fun slot => slot.content.any kind :=
      Array.countP_pos_iff.mpr ⟨_, Array.getElem_mem inRange, by simp [holds, counted]⟩
    simp [count, Array.setIfInBounds, inRange, Array.countP_set, holds, counted]
    omega
  · simp [count, Array.setIfInBounds, inRange, Array.countP_set, holds, counted]

theorem count_eq_zero
    {pool : Pool α}
    (nothing : ∀ ticket, pool.get? ticket = none)
    (kind : α → Bool) :
    pool.count kind = 0 := by
  rw [count, Array.countP_eq_zero]
  intro slot member
  obtain ⟨index, atIndex⟩ := Array.getElem?_of_mem member
  rcases slot with ⟨generation, content⟩
  cases content with
  | none => simp
  | some content =>
      have found : pool.get? ⟨index, generation⟩ = some content :=
        get?_eq_some_iff.mpr atIndex
      rw [nothing] at found
      cases found

/-- The other tickets find as many of a kind after a content was taken out. -/
private theorem countP_of_take
    {tickets : List Ticket}
    (took : pool.take taken = some (content, rest))
    (outside : taken ∉ tickets)
    (kind : α → Bool) :
    tickets.countP (fun ticket => (rest.get? ticket).any kind) =
      tickets.countP fun ticket => (pool.get? ticket).any kind := by
  refine List.countP_congr fun ticket member => ?_
  have different : ticket ≠ taken := fun isTaken => outside (isTaken ▸ member)
  rw [get?_take took, if_neg different]

/-- A list of different tickets does not find more of a kind than there are. -/
theorem countP_le_count
    {tickets : List Ticket}
    (nodup : tickets.Nodup)
    (pool : Pool α)
    (kind : α → Bool) :
    tickets.countP (fun ticket => (pool.get? ticket).any kind) ≤ pool.count kind := by
  induction tickets generalizing pool with
  | nil =>
      simp
  | cons first tickets inductionHypothesis =>
      obtain ⟨outside, nodup⟩ := List.nodup_cons.mp nodup
      rw [List.countP_cons]
      cases took : pool.take first with
      | none =>
          rw [take_eq_none_iff.mp took]
          exact inductionHypothesis nodup pool
      | some result =>
          rcases result with ⟨content, rest⟩
          rw [get?_of_take took, Option.any_some, ← countP_of_take took outside,
            ← count_take took kind]
          exact Nat.add_le_add_right (inductionHypothesis nodup rest) _

/-- It finds all of a kind when every ticket that finds a content is in it. -/
theorem countP_eq_count
    {tickets : List Ticket}
    (nodup : tickets.Nodup)
    (pool : Pool α)
    (covers : ∀ ticket content, pool.get? ticket = some content → ticket ∈ tickets)
    (kind : α → Bool) :
    tickets.countP (fun ticket => (pool.get? ticket).any kind) = pool.count kind := by
  induction tickets generalizing pool with
  | nil =>
      refine (count_eq_zero (fun ticket => ?_) kind).symm
      exact Option.eq_none_iff_forall_ne_some.mpr fun content found =>
        List.not_mem_nil (covers ticket content found)
  | cons first tickets inductionHypothesis =>
      obtain ⟨outside, nodup⟩ := List.nodup_cons.mp nodup
      rw [List.countP_cons]
      cases took : pool.take first with
      | none =>
          have absent := take_eq_none_iff.mp took
          rw [absent]
          refine inductionHypothesis nodup pool fun ticket content found => ?_
          refine (List.mem_cons.mp (covers ticket content found)).resolve_left ?_
          rintro rfl
          rw [absent] at found
          cases found
      | some result =>
          rcases result with ⟨content, rest⟩
          rw [get?_of_take took, Option.any_some, ← countP_of_take took outside,
            ← count_take took kind]
          congr 1
          refine inductionHypothesis nodup rest fun ticket held found => ?_
          rw [get?_take took] at found
          split at found
          next => cases found
          next other => exact (List.mem_cons.mp (covers ticket held found)).resolve_left other

end Take

section Clear

variable (pool : Pool α)

theorem slots_clear
    (index : Nat) :
    pool.clear.slots[index]? =
      pool.slots[index]?.map fun slot => if slot.isOccupied then slot.emptied else slot := by
  simp [clear]

@[simp] theorem get?_clear
    (ticket : Ticket) :
    pool.clear.get? ticket = none := by
  rw [Option.eq_none_iff_forall_not_mem]
  intro content found
  rw [Option.mem_def, get?_eq_some_iff, slots_clear] at found
  obtain ⟨slot, _, emptied⟩ := Option.map_eq_some_iff.mp found
  by_cases occupied : slot.isOccupied = true
  · simp [occupied, PoolSlot.emptied] at emptied
  · simp only [occupied, Bool.false_eq_true, ↓reduceIte] at emptied
    exact occupied (by simp [emptied, PoolSlot.isOccupied])

@[simp] theorem count_clear
    (kind : α → Bool) :
    pool.clear.count kind = 0 :=
  count_eq_zero pool.get?_clear kind

variable {pool}

@[simp] theorem ticketsOf_clear
    (pool : Pool α)
    (index : Nat) :
    pool.clear.ticketsOf index = pool.ticketsOf index := by
  rw [ticketsOf, ticketsOf, slots_clear]
  cases pool.slots[index]? with
  | none => rfl
  | some slot =>
      rcases slot with ⟨generation, content⟩
      cases content <;> simp [PoolSlot.tickets, PoolSlot.isOccupied, PoolSlot.emptied]

theorem Issued.clear
    {ticket : Ticket}
    (issued : pool.Issued ticket) :
    pool.clear.Issued ticket := by
  rw [issued_iff_lt, ticketsOf_clear]
  exact issued_iff_lt.mp issued

private theorem isOccupied_iff
    (index : Nat) :
    (pool.slots[index]?.map PoolSlot.isOccupied).getD false = true ↔
      ∃ generation content, pool.slots[index]? = some ⟨generation, some content⟩ := by
  cases pool.slots[index]? with
  | none => simp
  | some slot =>
      rcases slot with ⟨generation, content⟩
      cases content <;> simp [PoolSlot.isOccupied]

/-- The slots that held something are used next, and then those that stood empty before. -/
theorem mem_vacant_clear_iff
    {index : Nat} :
    index ∈ pool.clear.vacant ↔
      (∃ generation content, pool.slots[index]? = some ⟨generation, some content⟩) ∨
        index ∈ pool.vacant := by
  simp only [Pool.clear, List.mem_append, List.mem_reverse, List.mem_filter, List.mem_range,
    isOccupied_iff]
  constructor
  · rintro (⟨_, occupied⟩ | vacant)
    · exact .inl occupied
    · exact .inr vacant
  · rintro (⟨generation, content, holds⟩ | vacant)
    · exact .inl ⟨(Array.getElem?_eq_some_iff.mp holds).1, generation, content, holds⟩
    · exact .inr vacant

theorem Sound.clear
    (sound : pool.Sound) :
    pool.clear.Sound := by
  constructor
  · simp only [Pool.clear]
    rw [List.nodup_append]
    refine ⟨?_, sound.vacantNodup, ?_⟩
    · exact List.nodup_reverse.mpr (List.nodup_range.filter _)
    · intro occupied member vacant inVacant same
      subst same
      rw [List.mem_reverse, List.mem_filter, isOccupied_iff] at member
      obtain ⟨_, generation, content, holds⟩ := member
      obtain ⟨_, empty⟩ := sound.vacantEmpty _ inVacant
      rw [holds] at empty
      cases empty
  · intro index member
    rw [slots_clear]
    rcases mem_vacant_clear_iff.mp member with ⟨generation, content, holds⟩ | vacant
    · exact ⟨generation + 1, by simp [holds, PoolSlot.isOccupied, PoolSlot.emptied]⟩
    · obtain ⟨generation, empty⟩ := sound.vacantEmpty index vacant
      exact ⟨generation, by simp [empty, PoolSlot.isOccupied]⟩

end Clear

end Pool

end EventQuery
