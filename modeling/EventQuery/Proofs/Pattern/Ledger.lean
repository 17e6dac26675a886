import EventQuery.Proofs.Pattern.Ticket
import Mathlib.Data.List.Induction
import Mathlib.Data.List.Nodup
import Mathlib.Logic.Function.Basic

namespace EventQuery

/-!
# The ledger of a pool

A ledger writes down the tickets that a pool hands out and the content that stands behind each of
them: an entry is added when a content is put in and struck when it is taken out.  It knows nothing
of slots, of generations, or of which slot is used next.  A pool answers by its ledger at all times,
because three facts hold together after every call: the slots that are used next are exactly the
empty ones, each ticket finds what the ledger says, and the tickets in the ledger are those that the
generations of the slots account for.
-/

/-- The calls on a pool with tickets, apart from those that only read. -/
inductive PoolCall (τ α : Type) where
  | insert (content : α)
  | modify (ticket : τ) (change : α → α)
  | take (ticket : τ)
  | clear

/-- Contents behind tickets: what a pool can be asked for. -/
structure TicketStore (σ τ α : Type) where
  empty : σ
  size : σ → Nat
  get? : σ → τ → Option α
  contains : σ → τ → Bool
  insert : σ → α → σ × τ
  modify : σ → τ → (α → α) → σ
  take : σ → τ → Option (α × σ)
  clear : σ → σ

/-- The tickets that were handed out, the latest last, and the content behind every ticket. -/
structure Ledger (τ α : Type) where
  issued : List τ
  contents : τ → Option α

variable {σ τ α : Type}

namespace Ledger

/-- The ledger before the first call. -/
def empty : Ledger τ α := ⟨[], fun _ => none⟩

/-- The number of tickets with a content behind them. -/
def held (ledger : Ledger τ α) : Nat :=
  ledger.issued.countP fun ticket => (ledger.contents ticket).isSome

/-- The number of tickets of a slot whose content was taken out: how often the slot was freed. -/
def freed (ledger : Ledger Ticket α) (index : Nat) : Nat :=
  ledger.issued.countP fun ticket =>
    decide (ticket.index = index) && (ledger.contents ticket).isNone

/-- The ledger without any content. -/
def strikeAll (ledger : Ledger τ α) : Ledger τ α :=
  { ledger with contents := fun _ => none }

@[simp] theorem issued_strikeAll (ledger : Ledger τ α) :
    ledger.strikeAll.issued = ledger.issued := rfl

@[simp] theorem contents_strikeAll (ledger : Ledger τ α) (asked : τ) :
    ledger.strikeAll.contents asked = none := rfl

variable [DecidableEq τ]

/-- The ledger with a new ticket and the content behind it. -/
def add (ledger : Ledger τ α) (ticket : τ) (content : α) : Ledger τ α :=
  ⟨ledger.issued ++ [ticket], Function.update ledger.contents ticket (some content)⟩

/-- The ledger with another content behind a ticket that has one. -/
def change (ledger : Ledger τ α) (ticket : τ) (change : α → α) : Ledger τ α :=
  { ledger with
    contents :=
      Function.update ledger.contents ticket ((ledger.contents ticket).map change) }

/-- The ledger without the content behind a ticket. -/
def strike (ledger : Ledger τ α) (ticket : τ) : Ledger τ α :=
  { ledger with contents := Function.update ledger.contents ticket none }

@[simp] theorem issued_add (ledger : Ledger τ α) (ticket : τ) (content : α) :
    (ledger.add ticket content).issued = ledger.issued ++ [ticket] := rfl

@[simp] theorem issued_change (ledger : Ledger τ α) (ticket : τ) (change : α → α) :
    (ledger.change ticket change).issued = ledger.issued := rfl

@[simp] theorem issued_strike (ledger : Ledger τ α) (ticket : τ) :
    (ledger.strike ticket).issued = ledger.issued := rfl

@[simp] theorem contents_add (ledger : Ledger τ α) (ticket : τ) (content : α) (asked : τ) :
    (ledger.add ticket content).contents asked =
      if asked = ticket then some content else ledger.contents asked :=
  Function.update_apply ..

@[simp] theorem contents_strike (ledger : Ledger τ α) (ticket : τ) (asked : τ) :
    (ledger.strike ticket).contents asked =
      if asked = ticket then none else ledger.contents asked :=
  Function.update_apply ..

@[simp] theorem contents_change
    (ledger : Ledger τ α)
    (ticket : τ)
    (change : α → α)
    (asked : τ) :
    (ledger.change ticket change).contents asked =
      if asked = ticket then (ledger.contents asked).map change else ledger.contents asked := by
  refine (Function.update_apply ..).trans ?_
  split
  next same => rw [same]
  next => rfl

end Ledger

namespace TicketStore

/-- One call, and its entry in the ledger. -/
def perform
    [DecidableEq τ]
    (store : TicketStore σ τ α)
    (state : σ × Ledger τ α) :
    PoolCall τ α → σ × Ledger τ α
  | .insert content =>
      ((store.insert state.1 content).1,
        state.2.add (store.insert state.1 content).2 content)
  | .modify ticket change => (store.modify state.1 ticket change, state.2.change ticket change)
  | .take ticket =>
      (((store.take state.1 ticket).map Prod.snd).getD state.1, state.2.strike ticket)
  | .clear => (store.clear state.1, state.2.strikeAll)

/-- A pool and its ledger after a sequence of calls, the earliest first. -/
def run
    [DecidableEq τ]
    (store : TicketStore σ τ α)
    (calls : List (PoolCall τ α)) : σ × Ledger τ α :=
  calls.foldl store.perform (store.empty, Ledger.empty)

@[simp] theorem run_append
    [DecidableEq τ]
    (store : TicketStore σ τ α)
    (calls : List (PoolCall τ α))
    (call : PoolCall τ α) :
    store.run (calls ++ [call]) = store.perform (store.run calls) call := by
  simp only [run, List.foldl_append, List.foldl_cons, List.foldl_nil]

/-- At most one ticket is handed out in a call. -/
theorem length_issued_run
    [DecidableEq τ]
    (store : TicketStore σ τ α)
    (calls : List (PoolCall τ α)) :
    (store.run calls).2.issued.length ≤ calls.length := by
  induction calls using List.reverseRecOn with
  | nil => exact Nat.zero_le 0
  | append_singleton calls call inductionHypothesis =>
      rw [run_append, List.length_append, List.length_singleton]
      cases call with
      | insert content =>
          simpa only [perform, Ledger.issued_add, List.length_append, List.length_singleton,
            Nat.add_le_add_iff_right] using inductionHypothesis
      | modify ticket change => exact Nat.le_succ_of_le inductionHypothesis
      | take ticket => exact Nat.le_succ_of_le inductionHypothesis
      | clear => exact Nat.le_succ_of_le inductionHypothesis

/-- A pool answers by its ledger. -/
structure Answers (store : TicketStore σ τ α) (pool : σ) (ledger : Ledger τ α) : Prop where
  /-- No ticket is handed out twice. -/
  nodup : ledger.issued.Nodup
  /-- A content stands only behind a ticket that was handed out. -/
  issued_of_content : ∀ ticket content, ledger.contents ticket = some content → ticket ∈ ledger.issued
  get?_eq : ∀ ticket, store.get? pool ticket = ledger.contents ticket
  contains_eq : ∀ ticket, store.contains pool ticket = (ledger.contents ticket).isSome
  /-- What is taken out is the content behind the ticket, and nothing where there is none. -/
  take_eq : ∀ ticket, (store.take pool ticket).map Prod.fst = ledger.contents ticket
  /-- A change behind a ticket without content changes nothing. -/
  modify_eq :
    ∀ ticket, ledger.contents ticket = none → ∀ change, store.modify pool ticket change = pool
  size_eq : store.size pool = ledger.held

end TicketStore

namespace Pool

/-- Every empty slot is used again. -/
def Thrifty (pool : Pool α) : Prop :=
  ∀ index generation, pool.slots[index]? = some ⟨generation, none⟩ → index ∈ pool.vacant

/-- The calls on pools. -/
def store : TicketStore (Pool α) Ticket α where
  empty := Pool.empty
  size := Pool.size
  get? := Pool.get?
  contains := Pool.contains
  insert := Pool.insert
  modify := Pool.modify
  take := Pool.take
  clear := Pool.clear

/-- The slots of a pool account for its ledger. -/
structure Accounts (pool : Pool α) (ledger : Ledger Ticket α) : Prop where
  sound : pool.Sound
  thrifty : pool.Thrifty
  finds : ∀ ticket, pool.get? ticket = ledger.contents ticket
  issued : ∀ ticket, ticket ∈ ledger.issued ↔ pool.Issued ticket
  nodup : ledger.issued.Nodup

section Calls

variable {pool : Pool α}

theorem Thrifty.insert
    (thrifty : pool.Thrifty)
    (sound : pool.Sound)
    (content : α) :
    (pool.insert content).1.Thrifty := by
  intro index generation empty
  rw [slots_insert sound] at empty
  split at empty
  next => cases empty
  next other =>
    have vacant := thrifty index generation empty
    rcases vacant_insert pool content with ⟨full, _⟩ | shape
    · simp [full] at vacant
    · rw [shape] at vacant
      exact (List.mem_cons.mp vacant).resolve_left other

theorem Thrifty.modify
    (thrifty : pool.Thrifty)
    (ticket : Ticket)
    (change : α → α) :
    (pool.modify ticket change).Thrifty := by
  intro index generation empty
  rw [vacant_modify]
  cases present : pool.get? ticket with
  | none =>
      rw [modify_of_none present] at empty
      exact thrifty index generation empty
  | some content =>
      rw [slots_modify present] at empty
      split at empty
      next => cases empty
      next => exact thrifty index generation empty

theorem Thrifty.take
    {rest : Pool α}
    {taken : Ticket}
    {content : α}
    (thrifty : pool.Thrifty)
    (took : pool.take taken = some (content, rest)) :
    rest.Thrifty := by
  intro index generation empty
  rw [vacant_of_take took]
  rw [slots_of_take took] at empty
  split at empty
  next same => exact same ▸ List.mem_cons_self
  next => exact List.mem_cons_of_mem _ (thrifty index generation empty)

theorem Thrifty.clear
    (thrifty : pool.Thrifty) :
    pool.clear.Thrifty := by
  intro index generation empty
  rw [slots_clear] at empty
  obtain ⟨⟨current, content⟩, atIndex, _⟩ := Option.map_eq_some_iff.mp empty
  refine mem_vacant_clear_iff.mpr ?_
  cases content with
  | none => exact .inr (thrifty index current atIndex)
  | some content => exact .inl ⟨current, content, atIndex⟩

theorem accounts_empty :
    (empty : Pool α).Accounts Ledger.empty where
  sound := sound_of_full rfl
  thrifty := by
    intro index generation atIndex
    simp [empty] at atIndex
  finds := get?_empty
  issued := by
    intro ticket
    simp [Ledger.empty, issued_iff_lt, ticketsOf, empty]
  nodup := List.nodup_nil

variable {ledger : Ledger Ticket α}

theorem Accounts.insert
    (accounts : pool.Accounts ledger)
    (content : α) :
    (pool.insert content).1.Accounts (ledger.add (pool.insert content).2 content) where
  sound := accounts.sound.insert content
  thrifty := accounts.thrifty.insert accounts.sound content
  finds := by
    intro ticket
    rw [get?_insert accounts.sound, Ledger.contents_add, accounts.finds]
  issued := by
    intro ticket
    rw [issued_insert_iff accounts.sound, ← accounts.issued, Ledger.issued_add, List.mem_append,
      List.mem_singleton]
  nodup := by
    have fresh : (pool.insert content).2 ∉ ledger.issued := fun member =>
      not_issued_insert accounts.sound content ((accounts.issued _).mp member)
    exact List.nodup_append.mpr ⟨accounts.nodup, List.nodup_singleton _, fun _ before _ isNew =>
      fun same => fresh (List.mem_singleton.mp isNew ▸ same ▸ before)⟩

theorem Accounts.modify
    (accounts : pool.Accounts ledger)
    (ticket : Ticket)
    (change : α → α) :
    (pool.modify ticket change).Accounts (ledger.change ticket change) where
  sound := accounts.sound.modify ticket change
  thrifty := accounts.thrifty.modify ticket change
  finds := by
    intro asked
    rw [get?_modify, Ledger.contents_change, accounts.finds]
  issued := by
    intro asked
    rw [issued_iff_lt, ticketsOf_modify, ← issued_iff_lt]
    exact accounts.issued asked
  nodup := accounts.nodup

/-- Taking nothing out strikes nothing. -/
theorem Accounts.strike_of_none
    {ticket : Ticket}
    (accounts : pool.Accounts ledger)
    (nothing : pool.take ticket = none) :
    ledger.strike ticket = ledger := by
  have absent : ledger.contents ticket = none := by
    rw [← accounts.finds, ← take_eq_none_iff]
    exact nothing
  rw [Ledger.strike, ← absent, Function.update_eq_self]

theorem Accounts.take
    {rest : Pool α}
    {taken : Ticket}
    {content : α}
    (accounts : pool.Accounts ledger)
    (took : pool.take taken = some (content, rest)) :
    rest.Accounts (ledger.strike taken) where
  sound := accounts.sound.take took
  thrifty := accounts.thrifty.take took
  finds := by
    intro ticket
    rw [get?_take took, Ledger.contents_strike, accounts.finds]
  issued := by
    intro ticket
    rw [issued_iff_lt, ticketsOf_take took, ← issued_iff_lt]
    exact accounts.issued ticket
  nodup := accounts.nodup

theorem Accounts.clear
    (accounts : pool.Accounts ledger) :
    pool.clear.Accounts ledger.strikeAll where
  sound := accounts.sound.clear
  thrifty := accounts.thrifty.clear
  finds := get?_clear pool
  issued := by
    intro ticket
    rw [issued_iff_lt, ticketsOf_clear, ← issued_iff_lt]
    exact accounts.issued ticket
  nodup := accounts.nodup

/-- Every call leaves a pool whose slots account for its ledger. -/
theorem Accounts.perform
    (accounts : pool.Accounts ledger)
    (call : PoolCall Ticket α) :
    (store.perform (pool, ledger) call).1.Accounts (store.perform (pool, ledger) call).2 := by
  cases call with
  | insert content => exact accounts.insert content
  | modify ticket change => exact accounts.modify ticket change
  | take ticket =>
      simp only [TicketStore.perform, store]
      cases took : pool.take ticket with
      | none =>
          rw [accounts.strike_of_none took]
          exact accounts
      | some result => exact accounts.take took
  | clear => exact accounts.clear

theorem accounts_run
    (calls : List (PoolCall Ticket α)) :
    (store.run calls).1.Accounts (store.run calls).2 := by
  induction calls using List.reverseRecOn with
  | nil => exact accounts_empty
  | append_singleton calls call inductionHypothesis =>
      rw [TicketStore.run_append]
      exact inductionHypothesis.perform call

end Calls

section Counting

variable {pool : Pool α} {ledger : Ledger Ticket α}

theorem Accounts.issued_of_content
    (accounts : pool.Accounts ledger)
    {ticket : Ticket}
    {content : α}
    (behind : ledger.contents ticket = some content) :
    ticket ∈ ledger.issued :=
  (accounts.issued ticket).mpr (.inl ⟨content, (accounts.finds ticket).trans behind⟩)

theorem Accounts.size_eq
    (accounts : pool.Accounts ledger) :
    pool.size = ledger.held := by
  have covers : ∀ ticket content, pool.get? ticket = some content → ticket ∈ ledger.issued :=
    fun ticket content found =>
      accounts.issued_of_content ((accounts.finds ticket).symm.trans found)
  calc pool.size
    _ = pool.count fun _ => true := size_eq_count pool
    _ = ledger.issued.countP fun ticket => (pool.get? ticket).any fun _ => true :=
        (countP_eq_count accounts.nodup pool covers _).symm
    _ = ledger.held := by
        simp only [Ledger.held, accounts.finds, Option.any_true]

/-- A slot was freed as often as its generation says. -/
theorem Accounts.freed_eq
    (accounts : pool.Accounts ledger)
    {index : Nat}
    {slot : PoolSlot α}
    (atIndex : pool.slots[index]? = some slot) :
    ledger.freed index = slot.generation := by
  have spentIff : ∀ ticket : Ticket, ticket ∈ (ledger.issued.filter fun ticket =>
        decide (ticket.index = index) && (ledger.contents ticket).isNone) ↔
      ticket ∈ (List.range slot.generation).map (Ticket.mk index) := by
    rintro ⟨place, generation⟩
    rw [List.mem_filter, accounts.issued, ← accounts.finds, Bool.and_eq_true, decide_eq_true_iff,
      Option.isNone_iff_eq_none, and_left_comm, ← spent_iff]
    simp only [Spent, List.mem_map, List.mem_range, Ticket.mk.injEq]
    constructor
    · rintro ⟨rfl, held, holds, later⟩
      rw [atIndex, Option.some.injEq] at holds
      exact ⟨generation, holds ▸ later, rfl, rfl⟩
    · rintro ⟨_, later, rfl, rfl⟩
      exact ⟨rfl, slot, atIndex, later⟩
  have distinct : ((List.range slot.generation).map (Ticket.mk index)).Nodup :=
    List.nodup_range.map fun _ _ same => congrArg Ticket.generation same
  rw [Ledger.freed, List.countP_eq_length_filter,
    ((List.perm_ext_iff_of_nodup (accounts.nodup.filter _) distinct).mpr spentIff).length_eq,
    List.length_map, List.length_range]

/-- Where no slot is empty, every slot holds a content. -/
theorem Thrifty.size_eq
    (thrifty : pool.Thrifty)
    (full : pool.vacant = []) :
    pool.size = pool.slots.size := by
  rw [size, Array.countP_eq_size]
  intro slot member
  obtain ⟨index, atIndex⟩ := Array.getElem?_of_mem member
  rcases slot with ⟨generation, content⟩
  cases content with
  | none =>
      have vacant := thrifty index generation atIndex
      simp [full] at vacant
  | some content => rfl

/-- A call makes a new slot only where no slot is empty. -/
theorem size_slots_perform
    (pool : Pool α)
    (ledger : Ledger Ticket α)
    (call : PoolCall Ticket α) :
    (store.perform (pool, ledger) call).1.slots.size = pool.slots.size ∨
      (store.perform (pool, ledger) call).1.vacant = [] := by
  cases call with
  | insert content =>
      cases vacant : pool.vacant with
      | nil => exact .inr (by simp [TicketStore.perform, store, Pool.insert, vacant])
      | cons next rest => exact .inl (by simp [TicketStore.perform, store, Pool.insert, vacant])
  | modify ticket change =>
      refine .inl ?_
      simp only [TicketStore.perform, store, Pool.modify]
      split <;> simp
  | take ticket =>
      refine .inl ?_
      simp only [TicketStore.perform, store, Pool.take]
      cases pool.get? ticket <;> simp
  | clear => exact .inl (by simp [TicketStore.perform, store, Pool.clear])

/-- A pool has not more slots than it held contents at some time. -/
theorem size_slots_le
    {bound : Nat}
    (calls : List (PoolCall Ticket α))
    (held : ∀ earlier, earlier <+: calls → (store.run earlier).2.held ≤ bound) :
    (store.run calls).1.slots.size ≤ bound := by
  induction calls using List.reverseRecOn with
  | nil => exact Nat.zero_le bound
  | append_singleton calls call inductionHypothesis =>
      have before := inductionHypothesis fun earlier isEarlier =>
        held earlier (isEarlier.trans (List.prefix_append calls [call]))
      have accounts := accounts_run (calls ++ [call])
      have now := held (calls ++ [call]) List.prefix_rfl
      rcases size_slots_perform (store.run calls).1 (store.run calls).2 call with same | full
      · rw [TicketStore.run_append, same]
        exact before
      · rw [← TicketStore.run_append] at full
        rw [← accounts.thrifty.size_eq full, accounts.size_eq]
        exact now

theorem Accounts.answers
    (accounts : pool.Accounts ledger) :
    store.Answers pool ledger where
  nodup := accounts.nodup
  issued_of_content _ _ := accounts.issued_of_content
  get?_eq := accounts.finds
  contains_eq ticket := congrArg Option.isSome (accounts.finds ticket)
  take_eq ticket := by
    rw [← accounts.finds]
    simp [store, Pool.take, Function.comp_def]
  modify_eq ticket behind := modify_of_none ((accounts.finds ticket).trans behind)
  size_eq := accounts.size_eq

end Counting

end Pool

end EventQuery
