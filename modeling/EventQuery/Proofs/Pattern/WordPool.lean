import EventQuery.Proofs.Pattern.Ledger
import Mathlib.Data.List.Induction

namespace EventQuery

/-!
# Pools in machine words

The tickets of a pool count without end.  A machine keeps both numbers of a ticket in words of 32
bits, the generation of a slot starts over after 2^32 contents were taken out of it, and the number
of contents is counted along.  As long as no slot is freed 2^32 times and fewer than 2^32 contents
are held at a time, nothing of this shows: read as numbers, the words are those of the pool without
bounds, so their pool answers by its ledger too.
-/

variable {α β : Type}

/-- A ticket in two words. -/
structure WordTicket where
  index : UInt32
  generation : UInt32
  deriving DecidableEq, Repr

/-- A slot with its generation in a word. -/
structure WordSlot (α : Type) where
  generation : UInt32
  content : Option α

/-- A pool in words, with the number of its contents. -/
structure WordPool (α : Type) where
  slots : Array (WordSlot α)
  vacant : List UInt32
  size : Nat

namespace WordPool

def empty : WordPool α := ⟨#[], [], 0⟩

def get? (pool : WordPool α) (ticket : WordTicket) : Option α :=
  (pool.slots[ticket.index.toNat]?.filter fun slot => slot.generation == ticket.generation).bind
    WordSlot.content

def contains (pool : WordPool α) (ticket : WordTicket) : Bool := (pool.get? ticket).isSome

def insert (pool : WordPool α) (content : α) : WordPool α × WordTicket :=
  match pool.vacant with
  | [] =>
      (⟨pool.slots.push ⟨0, some content⟩, [], pool.size + 1⟩,
        ⟨UInt32.ofNat pool.slots.size, 0⟩)
  | index :: rest =>
      let generation := (pool.slots[index.toNat]?.map WordSlot.generation).getD 0
      (⟨pool.slots.setIfInBounds index.toNat ⟨generation, some content⟩, rest, pool.size + 1⟩,
        ⟨index, generation⟩)

def modify (pool : WordPool α) (ticket : WordTicket) (change : α → α) : WordPool α :=
  match pool.get? ticket with
  | none => pool
  | some content =>
      { pool with
        slots := pool.slots.setIfInBounds ticket.index.toNat
          ⟨ticket.generation, some (change content)⟩ }

/-- Take out the content of a ticket.  The generation after the last one is the first. -/
def take (pool : WordPool α) (ticket : WordTicket) : Option (α × WordPool α) :=
  (pool.get? ticket).map fun content =>
    (content,
      ⟨pool.slots.setIfInBounds ticket.index.toNat ⟨ticket.generation + 1, none⟩,
        ticket.index :: pool.vacant, pool.size - 1⟩)

def clear (pool : WordPool α) : WordPool α :=
  let occupied := (List.range pool.slots.size).filter fun index =>
    (pool.slots[index]?.map fun slot => slot.content.isSome).getD false
  ⟨pool.slots.map fun slot =>
      if slot.content.isSome then ⟨slot.generation + 1, none⟩ else slot,
    occupied.reverse.map UInt32.ofNat ++ pool.vacant, 0⟩

/-- The calls on pools in words. -/
def store : TicketStore (WordPool α) WordTicket α where
  empty := empty
  size := size
  get? := get?
  contains := contains
  insert := insert
  modify := modify
  take := take
  clear := clear

end WordPool

/-! ## Words as numbers -/

/-- The ticket that two words stand for. -/
def WordTicket.wide (ticket : WordTicket) : Ticket :=
  ⟨ticket.index.toNat, ticket.generation.toNat⟩

def WordSlot.wide (slot : WordSlot α) : PoolSlot α :=
  ⟨slot.generation.toNat, slot.content⟩

/-- The pool whose words these are. -/
def WordPool.wide (pool : WordPool α) : Pool α :=
  ⟨pool.slots.map WordSlot.wide, pool.vacant.map UInt32.toNat⟩

/-- A call with the ticket that its words stand for. -/
def PoolCall.wide : PoolCall WordTicket α → PoolCall Ticket α
  | .insert content => .insert content
  | .modify ticket change => .modify ticket.wide change
  | .take ticket => .take ticket.wide
  | .clear => .clear

/-- The numbers of a pool fit into words. -/
structure Pool.Fits (pool : Pool α) : Prop where
  slots : pool.slots.size < UInt32.size
  generations : ∀ slot ∈ pool.slots, slot.generation < UInt32.size

theorem Pool.Fits.generation
    {pool : Pool α}
    {index generation : Nat}
    {content : Option α}
    (fits : pool.Fits)
    (atIndex : pool.slots[index]? = some ⟨generation, content⟩) :
    generation < UInt32.size :=
  fits.generations _ (Array.mem_of_getElem? atIndex)

/-- No slot is freed 2^32 times, and fewer than 2^32 contents are held at a time. -/
def WithinWords (calls : List (PoolCall Ticket α)) : Prop :=
  ∀ earlier, earlier <+: calls →
    (∀ index, (Pool.store.run earlier).2.freed index < UInt32.size) ∧
      (Pool.store.run earlier).2.held < UInt32.size

theorem WordTicket.wide_inj
    {first second : WordTicket} :
    first.wide = second.wide ↔ first = second := by
  rcases first with ⟨index, generation⟩
  rcases second with ⟨index', generation'⟩
  simp only [wide, Ticket.mk.injEq, WordTicket.mk.injEq, UInt32.toNat_inj]

namespace WordPool

variable {pool : WordPool α}

private theorem toNat_ofNat
    {number : Nat}
    (fits : number < UInt32.size) :
    (UInt32.ofNat number).toNat = number := by
  rw [UInt32.toNat_ofNat', Nat.mod_eq_of_lt fits]

private theorem toNat_succ
    {generation : UInt32}
    (fits : generation.toNat + 1 < UInt32.size) :
    (generation + 1).toNat = generation.toNat + 1 := by
  rw [UInt32.toNat_add, UInt32.toNat_one, Nat.mod_eq_of_lt fits]

@[simp] theorem getElem?_wide
    (pool : WordPool α)
    (index : Nat) :
    pool.wide.slots[index]? = pool.slots[index]?.map WordSlot.wide := by
  simp only [wide, Array.getElem?_map]

@[simp] theorem get?_wide
    (pool : WordPool α)
    (ticket : WordTicket) :
    pool.wide.get? ticket.wide = pool.get? ticket := by
  simp only [Pool.get?, Pool.slot?, WordPool.get?, WordTicket.wide, getElem?_wide]
  cases pool.slots[ticket.index.toNat]? with
  | none => rfl
  | some slot =>
      have sameWord : (slot.wide.generation == ticket.generation.toNat) =
          (slot.generation == ticket.generation) := by
        rw [Bool.eq_iff_iff, beq_iff_eq, beq_iff_eq]
        exact UInt32.toNat_inj
      simp only [Option.map_some, Option.filter_some, sameWord]
      split <;> rfl

theorem size_insert
    (pool : WordPool α)
    (content : α) :
    (pool.insert content).1.size = pool.size + 1 := by
  cases vacant : pool.vacant <;> simp only [insert, vacant]

theorem size_take
    {rest : WordPool α}
    {ticket : WordTicket}
    {content : α}
    (took : pool.take ticket = some (content, rest)) :
    rest.size = pool.size - 1 := by
  simp only [take, Option.map_eq_some_iff, Prod.mk.injEq] at took
  obtain ⟨_, _, _, rfl⟩ := took
  rfl

theorem size_modify
    (pool : WordPool α)
    (ticket : WordTicket)
    (change : α → α) :
    (pool.modify ticket change).size = pool.size := by
  simp only [modify]
  split <;> rfl

/-- Putting a content in is the same in words while an index fits into a word. -/
theorem insert_wide
    (fits : pool.slots.size < UInt32.size)
    (content : α) :
    pool.wide.insert content = ((pool.insert content).1.wide, (pool.insert content).2.wide) := by
  cases vacant : pool.vacant with
  | nil =>
      simp only [Pool.insert, insert, wide, vacant, List.map_nil, WordTicket.wide,
        Array.map_push, Array.size_map, toNat_ofNat fits]
      rfl
  | cons next rest =>
      have generationWide :
          ((pool.slots[next.toNat]?.map WordSlot.wide).map PoolSlot.generation).getD 0 =
            ((pool.slots[next.toNat]?.map WordSlot.generation).getD 0).toNat := by
        cases pool.slots[next.toNat]? <;> rfl
      simp only [Pool.insert, insert, wide, vacant, List.map_cons, WordTicket.wide,
        Array.map_setIfInBounds, Array.getElem?_map, generationWide]
      rfl

theorem modify_wide
    (ticket : WordTicket)
    (change : α → α) :
    pool.wide.modify ticket.wide change = (pool.modify ticket change).wide := by
  simp only [Pool.modify, get?_wide, modify]
  cases pool.get? ticket with
  | none => rfl
  | some content =>
      simp only [wide, Array.map_setIfInBounds]
      rfl

/-- Taking a content out is the same in words while the next generation fits into one. -/
theorem take_wide
    {ticket : WordTicket}
    (fits : ticket.generation.toNat + 1 < UInt32.size) :
    pool.wide.take ticket.wide =
      (pool.take ticket).map fun result => (result.1, result.2.wide) := by
  simp only [Pool.take, get?_wide, take, Option.map_map]
  congr 1
  funext content
  simp only [Function.comp_apply, wide, Array.map_setIfInBounds, WordSlot.wide, toNat_succ fits,
    List.map_cons]
  rfl

theorem clear_wide
    (slots : pool.slots.size < UInt32.size)
    (generations :
      ∀ slot ∈ pool.slots, slot.content.isSome = true → slot.generation.toNat + 1 < UInt32.size) :
    pool.wide.clear = pool.clear.wide := by
  have emptied : ∀ slot ∈ pool.slots,
      (if slot.wide.isOccupied then slot.wide.emptied else slot.wide) =
        (if slot.content.isSome then ⟨slot.generation + 1, none⟩ else slot : WordSlot α).wide := by
    intro slot member
    by_cases occupied : slot.content.isSome = true
    · simp [PoolSlot.isOccupied, PoolSlot.emptied, WordSlot.wide, occupied,
        toNat_succ (generations slot member occupied)]
    · simp [PoolSlot.isOccupied, WordSlot.wide, occupied]
  have indexes : ∀ occupied : List Nat, (∀ index ∈ occupied, index < pool.slots.size) →
      (occupied.map UInt32.ofNat).map UInt32.toNat = occupied := by
    intro occupied inRange
    rw [List.map_map]
    refine (List.map_congr_left fun index member => ?_).trans (List.map_id occupied)
    exact toNat_ofNat (Nat.lt_trans (inRange index member) slots)
  have slotsWide : pool.wide.clear.slots = pool.clear.wide.slots := by
    simp only [Pool.clear, clear, wide, Array.map_map]
    exact Array.map_congr_left emptied
  have vacantWide : pool.wide.clear.vacant = pool.clear.wide.vacant := by
    simp only [Pool.clear, clear, wide, List.map_append, Array.size_map, Array.getElem?_map,
      Option.map_map, List.map_reverse]
    rw [indexes _ fun index member => List.mem_range.mp (List.mem_of_mem_filter member)]
    rfl
  exact congrArg₂ Pool.mk slotsWide vacantWide

end WordPool

/-! ## Runs in words -/

/-- A ledger with its tickets in words, and the ledger that it stands for. -/
structure Ledger.ReadsAs (words : Ledger WordTicket α) (ledger : Ledger Ticket α) : Prop where
  issued : ledger.issued = words.issued.map WordTicket.wide
  contents : ∀ ticket : WordTicket, ledger.contents ticket.wide = words.contents ticket

section ReadsAs

variable {words : Ledger WordTicket α} {ledger : Ledger Ticket α}

theorem Ledger.readsAs_empty :
    (Ledger.empty : Ledger WordTicket α).ReadsAs Ledger.empty :=
  ⟨rfl, fun _ => rfl⟩

theorem Ledger.ReadsAs.add
    (reads : words.ReadsAs ledger)
    (ticket : WordTicket)
    (content : α) :
    (words.add ticket content).ReadsAs (ledger.add ticket.wide content) where
  issued := by simp [reads.issued]
  contents asked := by simp [reads.contents, WordTicket.wide_inj]

theorem Ledger.ReadsAs.change
    (reads : words.ReadsAs ledger)
    (ticket : WordTicket)
    (change : α → α) :
    (words.change ticket change).ReadsAs (ledger.change ticket.wide change) where
  issued := reads.issued
  contents asked := by simp [reads.contents, WordTicket.wide_inj]

theorem Ledger.ReadsAs.strike
    (reads : words.ReadsAs ledger)
    (ticket : WordTicket) :
    (words.strike ticket).ReadsAs (ledger.strike ticket.wide) where
  issued := reads.issued
  contents asked := by simp [reads.contents, WordTicket.wide_inj]

theorem Ledger.ReadsAs.strikeAll
    (reads : words.ReadsAs ledger) :
    words.strikeAll.ReadsAs ledger.strikeAll where
  issued := reads.issued
  contents _ := rfl

theorem Ledger.ReadsAs.held_eq
    (reads : words.ReadsAs ledger) :
    ledger.held = words.held := by
  simp only [held, reads.issued, List.countP_map, Function.comp_def, reads.contents]

end ReadsAs

/-- A pool in words with its ledger, and the pool and ledger that they stand for. -/
structure Mirrors
    (words : WordPool α × Ledger WordTicket α)
    (state : Pool α × Ledger Ticket α) : Prop where
  pool : state.1 = words.1.wide
  size : words.1.size = state.1.size
  ledger : words.2.ReadsAs state.2

section Mirrors

variable {words : WordPool α × Ledger WordTicket α} {state : Pool α × Ledger Ticket α}

theorem mirrors_empty :
    Mirrors ((WordPool.empty : WordPool α), Ledger.empty) (Pool.empty, Ledger.empty) where
  pool := by simp [WordPool.wide, WordPool.empty, Pool.empty]
  size := rfl
  ledger := Ledger.readsAs_empty

theorem Mirrors.insert
    (mirrors : Mirrors words state)
    (sound : state.1.Sound)
    (fits : state.1.Fits)
    (content : α) :
    Mirrors (WordPool.store.perform words (.insert content))
      (Pool.store.perform state (.insert content)) := by
  rcases words with ⟨words, wordLedger⟩
  rcases state with ⟨pool, ledger⟩
  obtain ⟨rfl, sameSize, reads⟩ := mirrors
  have slots : words.slots.size < UInt32.size := by
    have := fits.slots
    rwa [WordPool.wide, Array.size_map] at this
  have inserted := WordPool.insert_wide slots content
  refine ⟨congrArg Prod.fst inserted, ?_, ?_⟩
  · have counted := Pool.count_insert sound content fun _ => true
    rw [← Pool.size_eq_count, ← Pool.size_eq_count, if_pos rfl] at counted
    exact (words.size_insert content).trans (by rw [sameSize]; exact counted.symm)
  · have sameTicket := congrArg Prod.snd inserted
    simp only [TicketStore.perform, Pool.store, WordPool.store, sameTicket]
    exact reads.add _ content

theorem Mirrors.modify
    (mirrors : Mirrors words state)
    (ticket : WordTicket)
    (change : α → α) :
    Mirrors (WordPool.store.perform words (.modify ticket change))
      (Pool.store.perform state (.modify ticket.wide change)) := by
  rcases words with ⟨words, wordLedger⟩
  rcases state with ⟨pool, ledger⟩
  obtain ⟨rfl, sameSize, reads⟩ := mirrors
  refine ⟨WordPool.modify_wide ticket change, ?_, reads.change ticket change⟩
  have counted : (words.wide.modify ticket.wide change).count (fun _ => true) =
      words.wide.count fun _ => true :=
    Pool.count_modify ticket.wide change _ fun _ _ => rfl
  rw [← Pool.size_eq_count, ← Pool.size_eq_count] at counted
  exact (words.size_modify ticket change).trans (sameSize.trans counted.symm)

theorem Mirrors.take
    (mirrors : Mirrors words state)
    (ticket : WordTicket)
    (fits : (Pool.store.perform state (.take ticket.wide)).1.Fits) :
    Mirrors (WordPool.store.perform words (.take ticket))
      (Pool.store.perform state (.take ticket.wide)) := by
  rcases words with ⟨words, wordLedger⟩
  rcases state with ⟨pool, ledger⟩
  obtain ⟨rfl, sameSize, reads⟩ := mirrors
  cases took : words.wide.take ticket.wide with
  | none =>
      have nothing : words.take ticket = none := by
        have absent := Pool.take_eq_none_iff.mp took
        rw [WordPool.get?_wide] at absent
        simp only [WordPool.take, absent, Option.map_none]
      refine ⟨?_, ?_, reads.strike ticket⟩
      · simp only [TicketStore.perform, Pool.store, WordPool.store, took, nothing, Option.map_none,
          Option.getD_none]
      · simpa only [TicketStore.perform, Pool.store, WordPool.store, took, nothing, Option.map_none,
          Option.getD_none] using sameSize
  | some result =>
      rcases result with ⟨content, rest⟩
      have performed : Pool.store.perform (words.wide, ledger) (.take ticket.wide) =
          (rest, ledger.strike ticket.wide) := by
        simp only [TicketStore.perform, Pool.store, took, Option.map_some, Option.getD_some]
      rw [performed] at fits ⊢
      have next : ticket.generation.toNat + 1 < UInt32.size :=
        fits.generation ((Pool.slots_of_take took ticket.wide.index).trans (if_pos rfl))
      have takenInWords : words.wide.take ticket.wide =
          (words.take ticket).map fun result => (result.1, result.2.wide) :=
        WordPool.take_wide next
      rw [took, eq_comm, Option.map_eq_some_iff] at takenInWords
      obtain ⟨⟨same, restInWords⟩, tookInWords, isRest⟩ := takenInWords
      obtain ⟨rfl, rfl⟩ := Prod.mk.inj isRest
      have performedInWords : WordPool.store.perform (words, wordLedger) (.take ticket) =
          (restInWords, wordLedger.strike ticket) := by
        simp only [TicketStore.perform, WordPool.store, tookInWords, Option.map_some,
          Option.getD_some]
      rw [performedInWords]
      refine ⟨rfl, ?_, reads.strike ticket⟩
      have sameSize : words.size = words.wide.size := sameSize
      calc restInWords.size
        _ = words.size - 1 := WordPool.size_take tookInWords
        _ = restInWords.wide.size := by
            rw [sameSize, ← Pool.size_of_take took, Nat.add_sub_cancel]

theorem Mirrors.clear
    (mirrors : Mirrors words state)
    (before : state.1.Fits)
    (after : (Pool.store.perform state .clear).1.Fits) :
    Mirrors (WordPool.store.perform words .clear) (Pool.store.perform state .clear) := by
  rcases words with ⟨words, wordLedger⟩
  rcases state with ⟨pool, ledger⟩
  obtain ⟨rfl, _, reads⟩ := mirrors
  have slots : words.slots.size < UInt32.size := by
    have := before.slots
    rwa [WordPool.wide, Array.size_map] at this
  refine ⟨WordPool.clear_wide slots ?_, ?_, reads.strikeAll⟩
  · intro slot member occupied
    obtain ⟨index, atIndex⟩ := Array.getElem?_of_mem member
    have emptied : words.wide.clear.slots[index]? = some ⟨slot.generation.toNat + 1, none⟩ := by
      simp [Pool.slots_clear, atIndex, WordSlot.wide, PoolSlot.isOccupied, PoolSlot.emptied,
        occupied]
    exact after.generation emptied
  · have nothing := words.wide.count_clear fun _ => true
    rw [← Pool.size_eq_count] at nothing
    exact nothing.symm

/-- A call does the same in words as long as the numbers fit before and after it. -/
theorem Mirrors.perform
    (mirrors : Mirrors words state)
    (sound : state.1.Sound)
    (call : PoolCall WordTicket α)
    (before : state.1.Fits)
    (after : (Pool.store.perform state call.wide).1.Fits) :
    Mirrors (WordPool.store.perform words call) (Pool.store.perform state call.wide) := by
  cases call with
  | insert content => exact mirrors.insert sound before content
  | modify ticket change => exact mirrors.modify ticket change
  | take ticket => exact mirrors.take ticket after
  | clear => exact mirrors.clear before after

theorem WithinWords.of_prefix
    {earlier calls : List (PoolCall Ticket α)}
    (within : WithinWords calls)
    (isEarlier : earlier <+: calls) :
    WithinWords earlier :=
  fun _ isPrefix => within _ (isPrefix.trans isEarlier)

/-- It takes 2^32 calls to leave the words. -/
theorem withinWords_of_length
    {calls : List (PoolCall Ticket α)}
    (short : calls.length < UInt32.size) :
    WithinWords calls := by
  intro earlier isEarlier
  have issued : (Pool.store.run earlier).2.issued.length < UInt32.size :=
    calc (Pool.store.run earlier).2.issued.length
      _ ≤ earlier.length := Pool.store.length_issued_run earlier
      _ ≤ calls.length := isEarlier.length_le
      _ < UInt32.size := short
  exact ⟨fun _ => Nat.lt_of_le_of_lt List.countP_le_length issued,
    Nat.lt_of_le_of_lt List.countP_le_length issued⟩

theorem WithinWords.fits
    {calls : List (PoolCall Ticket α)}
    (within : WithinWords calls) :
    (Pool.store.run calls).1.Fits where
  slots :=
    Nat.lt_of_le_pred (by decide) <| Pool.size_slots_le calls fun earlier isEarlier =>
      Nat.le_pred_of_lt (within earlier isEarlier).2
  generations slot member := by
    obtain ⟨index, atIndex⟩ := Array.getElem?_of_mem member
    rw [← (Pool.accounts_run calls).freed_eq atIndex]
    exact (within calls List.prefix_rfl).1 index

/-- Calls in words do the same as without bounds as long as the numbers fit at all times. -/
theorem mirrors_run
    (calls : List (PoolCall WordTicket α))
    (within : WithinWords (calls.map PoolCall.wide)) :
    Mirrors (WordPool.store.run calls) (Pool.store.run (calls.map PoolCall.wide)) := by
  induction calls using List.reverseRecOn with
  | nil => exact mirrors_empty
  | append_singleton calls call inductionHypothesis =>
      rw [List.map_append, List.map_singleton] at within ⊢
      have earlier := within.of_prefix (List.prefix_append _ _)
      have after := within.fits
      rw [TicketStore.run_append] at after
      rw [TicketStore.run_append, TicketStore.run_append]
      exact (inductionHypothesis earlier).perform (Pool.accounts_run _).sound call earlier.fits after

/-- A pool in words answers by its ledger where the pool that it stands for does. -/
theorem Mirrors.answers
    (mirrors : Mirrors words state)
    (answers : Pool.store.Answers state.1 state.2) :
    WordPool.store.Answers words.1 words.2 := by
  have finds : ∀ ticket, words.1.get? ticket = words.2.contents ticket := by
    intro ticket
    rw [← WordPool.get?_wide, ← mirrors.pool, ← mirrors.ledger.contents]
    exact answers.get?_eq ticket.wide
  constructor
  case nodup =>
    have nodup := answers.nodup
    rw [mirrors.ledger.issued] at nodup
    exact nodup.of_map
  case issued_of_content =>
    intro ticket content behind
    have member := answers.issued_of_content ticket.wide content
      ((mirrors.ledger.contents ticket).trans behind)
    rw [mirrors.ledger.issued, List.mem_map] at member
    obtain ⟨found, isFound, same⟩ := member
    exact WordTicket.wide_inj.mp same ▸ isFound
  case get?_eq => exact finds
  case contains_eq => exact fun ticket => congrArg Option.isSome (finds ticket)
  case take_eq =>
    intro ticket
    rw [← finds]
    simp [WordPool.store, WordPool.take, Function.comp_def]
  case modify_eq =>
    intro ticket behind change
    simp only [WordPool.store, WordPool.modify, finds, behind]
  case size_eq => exact mirrors.size.trans (answers.size_eq.trans mirrors.ledger.held_eq)

end Mirrors

/-- After every sequence of calls, with spent and made-up tickets among them, a pool answers by its
ledger: no ticket is handed out twice, each finds, changes and takes out its own content until that
is taken out and nothing after that, and the size is the number of tickets that find something.
Kept in words, the pool answers by its ledger too as long as no slot is freed 2^32 times and fewer
than 2^32 contents are held at a time, and it stands for the pool without bounds. -/
theorem pools_answer_by_ledger :
    (∀ calls : List (PoolCall Ticket α),
      Pool.store.Answers (Pool.store.run calls).1 (Pool.store.run calls).2) ∧
    ∀ calls : List (PoolCall WordTicket α), WithinWords (calls.map PoolCall.wide) →
      WordPool.store.Answers (WordPool.store.run calls).1 (WordPool.store.run calls).2 ∧
      (Pool.store.run (calls.map PoolCall.wide)).1 = (WordPool.store.run calls).1.wide ∧
      (Pool.store.run (calls.map PoolCall.wide)).2.issued =
        (WordPool.store.run calls).2.issued.map WordTicket.wide := by
  have answers : ∀ calls : List (PoolCall Ticket α),
      Pool.store.Answers (Pool.store.run calls).1 (Pool.store.run calls).2 :=
    fun calls => (Pool.accounts_run calls).answers
  refine ⟨answers, fun calls within => ?_⟩
  have mirrors := mirrors_run calls within
  exact ⟨mirrors.answers (answers _), mirrors.pool, mirrors.ledger.issued⟩

/-- The first slot is used again, and its first ticket is asked for after that; then everything is
taken out, and the slot emptied last is used. -/
def slotsReused : List (PoolCall WordTicket Nat) :=
  [.insert 5, .insert 6, .take ⟨0, 0⟩, .insert 7, .take ⟨0, 0⟩, .modify ⟨0, 0⟩ Nat.succ,
    .modify ⟨0, 1⟩ Nat.succ, .clear, .insert 8]

theorem pools_answer_by_ledger_slotsReused :
    WithinWords (slotsReused.map PoolCall.wide) ∧
      WordPool.store.Answers (WordPool.store.run slotsReused).1
        (WordPool.store.run slotsReused).2 ∧
      (Pool.store.run (slotsReused.map PoolCall.wide)).1 =
        (WordPool.store.run slotsReused).1.wide ∧
      (WordPool.store.run slotsReused).2.issued = [⟨0, 0⟩, ⟨1, 0⟩, ⟨0, 1⟩, ⟨1, 1⟩] ∧
      (WordPool.store.run slotsReused).1.size = 1 := by
  have within : WithinWords (slotsReused.map PoolCall.wide) := withinWords_of_length (by decide)
  obtain ⟨answers, same, _⟩ := pools_answer_by_ledger.2 slotsReused within
  exact ⟨within, answers, same, by decide +kernel, by decide +kernel⟩

end EventQuery
