import EventQuery.Proofs.Statement.Frame
import Mathlib.Data.List.Nodup

namespace EventQuery

/-!
# Pairs of a join

A join is followed over all events that it takes, from its activation on.  Each pair of a left and a
right arrival is made at the later of the two and only once, if the earlier one is still held there
and the pair passes the condition, and no other pair is ever made.  An outer join makes a row with
null in place of a right arrival for each left arrival that finds no partner, and for no other.
-/

/-- An event that a join has taken, and what it has made of it. -/
structure JoinArrival where
  event : Event
  occasion : Occasion
  made : Pairing

section Runs

variable {first last : Statement} {arrivals : List JoinArrival}

/--
What a statement becomes while it takes events and points of time, with what it makes of the events.
It meets any store at each of them.
-/
inductive Statement.Takes (first : Statement) : List JoinArrival → Statement → Prop
  | start : Takes first [] first
  | event {arrivals : List JoinArrival} {statement : Statement}
      (earlier : Takes first arrivals statement)
      (running : statement.stopped = false)
      (store : StateStore)
      (event : Event)
      (occasion : Occasion) :
      Takes first (arrivals ++ [⟨event, occasion, (statement.rowsOf event occasion).2⟩])
        (statement.send store event occasion).1
  | time {arrivals : List JoinArrival} {statement : Statement}
      (earlier : Takes first arrivals statement)
      (store : StateStore)
      (now : Int)
      (occasion : Occasion) :
      Takes first arrivals (statement.advanceTime store now occasion).1

/-- A statement keeps its plan, whatever it takes. -/
theorem Statement.Takes.plan
    (takes : first.Takes arrivals last) :
    last.plan = first.plan := by
  induction takes with
  | start => rfl
  | event _ _ store event occasion inductionHypothesis =>
      exact (moves_send _ store event occasion).same.2.trans inductionHypothesis
  | time _ store now occasion inductionHypothesis =>
      exact (moves_advanceTime _ store now occasion).same.2.trans inductionHypothesis

end Runs

namespace JoinArrival

variable (arrivals : List JoinArrival)

/-- The event of an arrival, by the number of the arrival. -/
def slotAt (index : Nat) : Value :=
  match arrivals[index]? with
  | some arrival => .event arrival.event
  | none => .null

/-- The row of a left arrival and a right one, if there is one. -/
def rowAt (pair : Nat × Option Nat) : Row :=
  [slotAt arrivals pair.1, Value.ofOption (pair.2.map (slotAt arrivals))]

/-- Whether an arrival has the event type of a side. -/
def isAt (side : JoinSide) (index : Nat) : Bool :=
  arrivals[index]?.any fun arrival => arrival.event.kind = side.eventType

/-- The last arrivals of a side before a later one, as many as the window of the side is long. -/
def held (side : JoinSide) (later : Nat) : List Nat :=
  keepLatest side.window ((List.range later).filter (isAt arrivals side))

/--
Whether a left and a right arrival make a pair: the later of them finds the earlier one among the
last arrivals of its side, and the pair passes the condition then without a fault.
-/
inductive Pairs (left right : JoinSide) (condition : Option Node) : Nat → Nat → Prop
  | atLeft {i j position : Nat} {arrival : JoinArrival}
      (arrived : arrivals[i]? = some arrival)
      (isLeft : arrival.event.kind = left.eventType)
      (isHeld : (held arrivals right i)[position]? = some j)
      (passes :
        Pairing.passes condition (rowAt arrivals (i, some j))
          (position :: 0 :: 1 :: arrival.occasion) = .ok true) :
      Pairs left right condition i j
  | atRight {i j position : Nat} {arrival : JoinArrival}
      (arrived : arrivals[j]? = some arrival)
      (isRight : arrival.event.kind = right.eventType)
      (isHeld : (held arrivals left j)[position]? = some i)
      (passes :
        Pairing.passes condition (rowAt arrivals (i, some j))
          (position :: 1 :: 1 :: arrival.occasion) = .ok true) :
      Pairs left right condition i j

section Held

variable {arrivals : List JoinArrival} {side : JoinSide}

theorem keepLatest_sublist
    {α : Type}
    {bound : Option Nat}
    {items : List α} :
    (keepLatest bound items).Sublist items := by
  cases bound with
  | none => exact .refl items
  | some size => exact List.drop_sublist _ _

/-- What is held before an arrival has arrived before it, at the side. -/
theorem lt_of_mem_held
    {index later : Nat}
    (member : index ∈ held arrivals side later) :
    index < later ∧ isAt arrivals side index = true := by
  obtain ⟨inRange, isAt⟩ := List.mem_filter.mp (keepLatest_sublist.subset member)
  exact ⟨List.mem_range.mp inRange, isAt⟩

theorem nodup_held
    (later : Nat) :
    (held arrivals side later).Nodup :=
  (keepLatest_sublist.trans List.filter_sublist).nodup List.nodup_range

/-- Only the latest of the latest elements and a further one are among the latest of all. -/
theorem keepLatest_append
    {α : Type}
    (bound : Option Nat)
    (items : List α)
    (item : α) :
    keepLatest bound (keepLatest bound items ++ [item]) = keepLatest bound (items ++ [item]) := by
  cases bound with
  | none => rfl
  | some size =>
      have kept : items.drop (items.length - size) ++ [item] =
          (items ++ [item]).drop (items.length - size) :=
        (List.drop_append_of_le_length (Nat.sub_le _ _)).symm
      simp only [keepLatest, kept, List.drop_drop, List.length_drop, List.length_append,
        List.length_singleton]
      congr 1
      omega

theorem map_keepLatest
    {α β : Type}
    (change : α → β)
    (bound : Option Nat)
    (items : List α) :
    (keepLatest bound items).map change = keepLatest bound (items.map change) := by
  cases bound with
  | none => rfl
  | some size => rw [keepLatest, keepLatest, List.map_drop, List.length_map]

/-- One arrival later the same ones are held, with the arrival itself when it is at the side. -/
theorem held_succ
    (later : Nat) :
    held arrivals side (later + 1) =
      if isAt arrivals side later then keepLatest side.window (held arrivals side later ++ [later])
      else held arrivals side later := by
  rw [held, List.range_succ, List.filter_append, List.filter_singleton]
  split
  next =>
      simp only [*, cond_true, held]
      rw [keepLatest_append]
  next => simp [*, held]

end Held

section Partners

variable (condition : Option Node) (occasion : Occasion) (rowOf : Nat → Row)

/-- Whether a row passes a condition without a fault. -/
def accepts (row : Row) (occasion : Occasion) : Bool :=
  match Pairing.passes condition row occasion with
  | .ok truth => truth
  | .error _ => false

/-- Those of some arrivals of which the rows pass a condition. -/
def partners (position : Nat) : List Nat → List Nat
  | [] => []
  | index :: rest =>
      if accepts condition (rowOf index) (position :: occasion) then
        index :: partners (position + 1) rest
      else partners (position + 1) rest

theorem rows_select
    (position : Nat)
    (indices : List Nat) :
    (Pairing.select condition occasion position (indices.map rowOf)).rows =
      (partners condition occasion rowOf position indices).map rowOf := by
  induction indices generalizing position with
  | nil => rfl
  | cons index rest inductionHypothesis =>
      rw [List.map_cons, Pairing.select, partners, accepts]
      rcases Pairing.passes condition (rowOf index) (position :: occasion) with fault | _ | _ <;>
        simp [inductionHypothesis]

variable {condition occasion rowOf}

theorem partners_sublist
    (position : Nat)
    (indices : List Nat) :
    (partners condition occasion rowOf position indices).Sublist indices := by
  induction indices generalizing position with
  | nil => exact .refl _
  | cons index rest inductionHypothesis =>
      rw [partners]
      split
      next => exact (inductionHypothesis _).cons_cons index
      next => exact (inductionHypothesis _).cons index

theorem accepts_iff
    {row : Row} :
    accepts condition row occasion = true ↔ Pairing.passes condition row occasion = .ok true := by
  rw [accepts]
  split <;> simp [*]

theorem mem_partners_iff
    {index position : Nat}
    {indices : List Nat} :
    index ∈ partners condition occasion rowOf position indices ↔
      ∃ offset, indices[offset]? = some index ∧
        Pairing.passes condition (rowOf index) ((position + offset) :: occasion) = .ok true := by
  induction indices generalizing position with
  | nil => simp [partners]
  | cons first rest inductionHypothesis =>
      have later : index ∈ partners condition occasion rowOf (position + 1) rest ↔
          ∃ offset, (first :: rest)[offset + 1]? = some index ∧
            Pairing.passes condition (rowOf index) ((position + (offset + 1)) :: occasion) =
              .ok true := by
        simp only [inductionHypothesis, List.getElem?_cons_succ, Nat.add_assoc, Nat.add_comm 1]
      rw [← Nat.or_exists_add_one, ← later, List.getElem?_cons_zero, Nat.add_zero, partners]
      split
      next accepted =>
          rw [List.mem_cons, Option.some.injEq, eq_comm]
          refine or_congr_left ⟨fun same => ⟨same, same ▸ accepts_iff.mp accepted⟩, And.left⟩
      next refused =>
          refine (or_iff_right fun found => refused ?_).symm
          rw [Option.some.inj found.1]
          exact accepts_iff.mpr found.2

end Partners

section Due

variable (left right : JoinSide) (outer : Bool) (condition : Option Node)
  (arrivals : List JoinArrival)

/-- The pairs that a left arrival is due; an outer join makes one without a partner. -/
def dueAtLeft (index : Nat) (occasion : Occasion) : List (Nat × Option Nat) :=
  let found :=
    partners condition (0 :: 1 :: occasion) (fun other => rowAt arrivals (index, some other)) 0
      (held arrivals right index)
  if outer && found.isEmpty then [(index, none)] else found.map fun other => (index, some other)

/-- The pairs that a right arrival is due. -/
def dueAtRight (index : Nat) (occasion : Occasion) : List (Nat × Option Nat) :=
  (partners condition (1 :: 1 :: occasion) (fun other => rowAt arrivals (other, some index)) 0
    (held arrivals left index)).map fun other => (other, some index)

/-- The pairs that an arrival is due, in order. -/
def due (index : Nat) : List (Nat × Option Nat) :=
  match arrivals[index]? with
  | none => []
  | some arrival =>
      (if arrival.event.kind = left.eventType then
        dueAtLeft right outer condition arrivals index arrival.occasion
      else []) ++
        if arrival.event.kind = right.eventType then
          dueAtRight left condition arrivals index arrival.occasion
        else []

variable {left right outer condition arrivals} {index : Nat} {arrival : JoinArrival}

theorem mem_dueAtLeft_some
    {occasion : Occasion}
    {i j : Nat} :
    (i, some j) ∈ dueAtLeft right outer condition arrivals index occasion ↔
      i = index ∧ ∃ position, (held arrivals right index)[position]? = some j ∧
        Pairing.passes condition (rowAt arrivals (index, some j)) (position :: 0 :: 1 :: occasion) =
          .ok true := by
  have found :
      j ∈ partners condition (0 :: 1 :: occasion) (fun other => rowAt arrivals (index, some other))
          0 (held arrivals right index) ↔ _ :=
    mem_partners_iff
  simp only [Nat.zero_add] at found
  rw [← found, dueAtLeft]
  split
  next alone =>
      have noPartner := List.isEmpty_iff.mp (Bool.and_eq_true _ _ ▸ alone).2
      simp [noPartner]
  next => simp [eq_comm, and_comm]

theorem mem_dueAtLeft_none
    {occasion : Occasion}
    {i : Nat} :
    (i, none) ∈ dueAtLeft right outer condition arrivals index occasion ↔
      i = index ∧ outer = true ∧
        ∀ j, (index, some j) ∉ dueAtLeft right outer condition arrivals index occasion := by
  rw [dueAtLeft]
  split
  next alone => simp [(Bool.and_eq_true _ _ ▸ alone).1]
  next accompanied =>
      suffices outer = true → ∃ j, j ∈ partners condition (0 :: 1 :: occasion)
          (fun other => rowAt arrivals (index, some other)) 0 (held arrivals right index) by
        simpa using fun _ => this
      intro isOuter
      exact List.isEmpty_eq_false_iff_exists_mem.mp (by simpa [isOuter] using accompanied)

theorem mem_dueAtRight
    {occasion : Occasion}
    {pair : Nat × Option Nat} :
    pair ∈ dueAtRight left condition arrivals index occasion ↔
      pair.2 = some index ∧ ∃ position, (held arrivals left index)[position]? = some pair.1 ∧
        Pairing.passes condition (rowAt arrivals (pair.1, some index))
          (position :: 1 :: 1 :: occasion) = .ok true := by
  have found :
      pair.1 ∈ partners condition (1 :: 1 :: occasion)
          (fun other => rowAt arrivals (other, some index)) 0 (held arrivals left index) ↔ _ :=
    mem_partners_iff
  simp only [Nat.zero_add] at found
  rw [← found, dueAtRight, List.mem_map]
  constructor
  · rintro ⟨other, member, rfl⟩
    exact ⟨rfl, member⟩
  · rintro ⟨isIndex, member⟩
    exact ⟨pair.1, member, Prod.ext rfl isIndex.symm⟩

theorem mem_due
    {pair : Nat × Option Nat} :
    pair ∈ due left right outer condition arrivals index ↔
      ∃ arrival, arrivals[index]? = some arrival ∧
        (arrival.event.kind = left.eventType ∧
            pair ∈ dueAtLeft right outer condition arrivals index arrival.occasion ∨
          arrival.event.kind = right.eventType ∧
            pair ∈ dueAtRight left condition arrivals index arrival.occasion) := by
  rw [due]
  cases arrivals[index]? with
  | none => simp
  | some arrival =>
      rw [List.mem_append]
      split <;> split <;> simp_all

/-- What an arrival is due are the pairs of which it is the later one. -/
theorem mem_due_some
    {i j : Nat} :
    (i, some j) ∈ due left right outer condition arrivals index ↔
      index = max i j ∧ Pairs arrivals left right condition i j := by
  rw [mem_due]
  constructor
  · rintro ⟨arrival, arrived, ⟨isLeft, isDue⟩ | ⟨isRight, isDue⟩⟩
    · obtain ⟨rfl, position, isHeld, passes⟩ := mem_dueAtLeft_some.mp isDue
      have earlier := (lt_of_mem_held (List.mem_of_getElem? isHeld)).1
      exact ⟨(Nat.max_eq_left (Nat.le_of_lt earlier)).symm, .atLeft arrived isLeft isHeld passes⟩
    · obtain ⟨isIndex, position, isHeld, passes⟩ := mem_dueAtRight.mp isDue
      obtain rfl : j = index := Option.some.inj isIndex
      have earlier := (lt_of_mem_held (List.mem_of_getElem? isHeld)).1
      exact ⟨(Nat.max_eq_right (Nat.le_of_lt earlier)).symm, .atRight arrived isRight isHeld passes⟩
  · rintro ⟨rfl, pairs⟩
    cases pairs with
    | atLeft arrived isLeft isHeld passes =>
        have earlier := (lt_of_mem_held (List.mem_of_getElem? isHeld)).1
        rw [Nat.max_eq_left (Nat.le_of_lt earlier)]
        exact ⟨_, arrived, .inl ⟨isLeft, mem_dueAtLeft_some.mpr ⟨rfl, _, isHeld, passes⟩⟩⟩
    | atRight arrived isRight isHeld passes =>
        have earlier := (lt_of_mem_held (List.mem_of_getElem? isHeld)).1
        rw [Nat.max_eq_right (Nat.le_of_lt earlier)]
        exact ⟨_, arrived, .inr ⟨isRight, mem_dueAtRight.mpr ⟨rfl, _, isHeld, passes⟩⟩⟩

/-- A left arrival is due a row without a partner in an outer join when it makes no pair. -/
theorem mem_due_none
    {i : Nat} :
    (i, none) ∈ due left right outer condition arrivals index ↔
      index = i ∧ outer = true ∧ isAt arrivals left i = true ∧
        ∀ j < i, ¬ Pairs arrivals left right condition i j := by
  have isAt_iff : isAt arrivals left i = true ↔
      ∃ arrival, arrivals[i]? = some arrival ∧ arrival.event.kind = left.eventType := by
    simp [isAt, Option.any_eq_true]
  rw [mem_due, isAt_iff]
  constructor
  · rintro ⟨arrival, arrived, ⟨isLeft, isDue⟩ | ⟨isRight, isDue⟩⟩
    · obtain ⟨rfl, isOuter, noPartner⟩ := mem_dueAtLeft_none.mp isDue
      refine ⟨rfl, isOuter, ⟨arrival, arrived, isLeft⟩, fun j earlier pairs => ?_⟩
      cases pairs with
      | atLeft other _ isHeld passes =>
          cases arrived.symm.trans other
          exact noPartner j (mem_dueAtLeft_some.mpr ⟨rfl, _, isHeld, passes⟩)
      | atRight _ _ isHeld _ =>
          exact Nat.lt_asymm earlier (lt_of_mem_held (List.mem_of_getElem? isHeld)).1
    · cases (mem_dueAtRight.mp isDue).1
  · rintro ⟨rfl, isOuter, ⟨arrival, arrived, isLeft⟩, noPair⟩
    refine ⟨arrival, arrived, .inl ⟨isLeft, mem_dueAtLeft_none.mpr ⟨rfl, isOuter, ?_⟩⟩⟩
    intro j isDue
    obtain ⟨_, position, isHeld, passes⟩ := mem_dueAtLeft_some.mp isDue
    exact noPair j (lt_of_mem_held (List.mem_of_getElem? isHeld)).1
      (.atLeft arrived isLeft isHeld passes)

theorem Pairs.ne
    {i j : Nat}
    (pairs : Pairs arrivals left right condition i j) :
    i ≠ j := by
  cases pairs with
  | atLeft _ _ isHeld _ => exact Nat.ne_of_gt (lt_of_mem_held (List.mem_of_getElem? isHeld)).1
  | atRight _ _ isHeld _ => exact Nat.ne_of_lt (lt_of_mem_held (List.mem_of_getElem? isHeld)).1

/-- No pair is due twice at one arrival. -/
theorem nodup_due :
    (due left right outer condition arrivals index).Nodup := by
  have found : ∀ (occasion : Occasion) (rowOf : Nat → Row) (side : JoinSide),
      (partners condition occasion rowOf 0 (held arrivals side index)).Nodup :=
    fun _ _ _ => (partners_sublist _ _).nodup (nodup_held index)
  have lefts : ∀ occasion, (dueAtLeft right outer condition arrivals index occasion).Nodup := by
    intro occasion
    rw [dueAtLeft]
    split
    next => exact List.nodup_singleton _
    next => exact (found _ _ _).map fun _ _ same => Option.some.inj (Prod.mk.inj same).2
  have rights : ∀ occasion, (dueAtRight left condition arrivals index occasion).Nodup :=
    fun occasion => (found _ _ _).map fun _ _ same => (Prod.mk.inj same).1
  -- An arrival is never held before itself, so its two sides find different pairs.
  have disjoint : ∀ occasion other,
      (dueAtLeft right outer condition arrivals index occasion).Disjoint
        (dueAtRight left condition arrivals index other) := by
    rintro occasion other ⟨i, j⟩ isLeft isRight
    obtain ⟨isIndex, _, isHeld, _⟩ := mem_dueAtRight.mp isRight
    cases isIndex
    obtain ⟨rfl, _⟩ := mem_dueAtLeft_some.mp isLeft
    exact Nat.lt_irrefl _ (lt_of_mem_held (List.mem_of_getElem? isHeld)).1
  rw [due]
  split
  next => exact List.nodup_nil
  next arrival _ =>
      split <;> split <;> simp [List.nodup_append', lefts, rights, disjoint]

/-- No pair is due at two arrivals. -/
theorem eq_of_mem_due
    {other : Nat}
    {pair : Nat × Option Nat}
    (isDue : pair ∈ due left right outer condition arrivals index)
    (isOther : pair ∈ due left right outer condition arrivals other) :
    index = other := by
  obtain ⟨i, _ | j⟩ := pair
  · exact (mem_due_none.mp isDue).1.trans (mem_due_none.mp isOther).1.symm
  · exact (mem_due_some.mp isDue).1.trans (mem_due_some.mp isOther).1.symm

theorem nodup_flatMap_due :
    ((List.range arrivals.length).flatMap (due left right outer condition arrivals)).Nodup := by
  refine List.nodup_flatMap.mpr ⟨fun _ _ => nodup_due, List.nodup_range.imp fun different => ?_⟩
  exact fun pair isDue isOther => different (eq_of_mem_due isDue isOther)

end Due

/-- Whether the buffers of a join have what is held of the first arrivals at each side. -/
structure Holds (left right : JoinSide) (arrivals : List JoinArrival) (count : Nat)
    (buffers : JoinBuffers) : Prop where
  left : buffers.left.map Value.event = (held arrivals left count).map (slotAt arrivals)
  right : buffers.right.map Value.event = (held arrivals right count).map (slotAt arrivals)

namespace Holds

variable {left right : JoinSide} {arrivals : List JoinArrival} {count : Nat}
  {buffers : JoinBuffers} {arrival : JoinArrival}

theorem empty : Holds left right arrivals 0 .empty := by
  have none : ∀ side, held arrivals side 0 = [] :=
    fun _ => List.sublist_nil.mp keepLatest_sublist
  exact ⟨by rw [none]; rfl, by rw [none]; rfl⟩

theorem slotAt_eq
    (arrived : arrivals[count]? = some arrival) :
    slotAt arrivals count = .event arrival.event := by
  rw [slotAt, arrived]

/-- The events that are held at a side, when one more has arrived. -/
theorem map_hold
    {side : JoinSide}
    {events : List Event}
    (arrived : arrivals[count]? = some arrival)
    (holds : events.map Value.event = (held arrivals side count).map (slotAt arrivals)) :
    (if arrival.event.kind = side.eventType then keepLatest side.window (events ++ [arrival.event])
      else events).map Value.event =
        (held arrivals side (count + 1)).map (slotAt arrivals) := by
  have isAt_iff : isAt arrivals side count = true ↔ arrival.event.kind = side.eventType := by
    simp [isAt, arrived]
  rw [held_succ]
  split
  next isKind =>
      rw [if_pos (isAt_iff.mpr isKind), map_keepLatest, map_keepLatest, List.map_append,
        List.map_append, holds, List.map_singleton, List.map_singleton, slotAt_eq arrived]
  next other => rw [if_neg (mt isAt_iff.mp other), holds]

theorem hold
    (holds : Holds left right arrivals count buffers)
    (arrived : arrivals[count]? = some arrival) :
    Holds left right arrivals (count + 1) (buffers.hold left right arrival.event) :=
  ⟨map_hold arrived holds.left, map_hold arrived holds.right⟩

/-- An arrival makes the rows that it is due. -/
theorem rows_ofEvent
    {outer : Bool}
    {condition : Option Node}
    (holds : Holds left right arrivals count buffers)
    (arrived : arrivals[count]? = some arrival) :
    (Pairing.ofEvent left right outer condition buffers arrival.event
        (1 :: arrival.occasion)).rows =
      (due left right outer condition arrivals count).map (rowAt arrivals) := by
  have isEvent := slotAt_eq arrived
  have rights : buffers.right.map (Pairing.row arrival.event) =
      (held arrivals right count).map fun other => rowAt arrivals (count, some other) := by
    have isRow : Pairing.row arrival.event = fun other => [.event arrival.event, .event other] := rfl
    have mapped := congrArg (List.map fun value => [slotAt arrivals count, value]) holds.right
    simpa [isRow, rowAt, Value.ofOption, isEvent, Function.comp_def] using mapped
  have lefts : buffers.left.map (fun other => Pairing.row other arrival.event) =
      (held arrivals left count).map fun other => rowAt arrivals (other, some count) := by
    have mapped := congrArg (List.map fun value => [value, slotAt arrivals count]) holds.left
    simpa [Pairing.row, rowAt, Value.ofOption, isEvent, Function.comp_def] using mapped
  have atLeft : (Pairing.ofLeft outer condition buffers arrival.event (1 :: arrival.occasion)).rows =
      (dueAtLeft right outer condition arrivals count arrival.occasion).map (rowAt arrivals) := by
    have rows := rows_select condition (0 :: 1 :: arrival.occasion)
      (fun other => rowAt arrivals (count, some other)) 0 (held arrivals right count)
    have alone : rowAt arrivals (count, none) = [.event arrival.event, .null] := by
      rw [rowAt, isEvent]
      rfl
    rw [Pairing.ofLeft, rights, rows, List.isEmpty_map, dueAtLeft]
    split
    next => rw [List.map_singleton, alone]
    next => rw [rows, List.map_map, Function.comp_def]
  have atRight : (Pairing.ofRight condition buffers arrival.event (1 :: arrival.occasion)).rows =
      (dueAtRight left condition arrivals count arrival.occasion).map (rowAt arrivals) := by
    rw [Pairing.ofRight, lefts, rows_select, dueAtRight, List.map_map]
    rfl
  rw [Pairing.ofEvent, due, arrived]
  dsimp only [Pairing.append]
  split <;> split <;> simp [Pairing.empty, atLeft, atRight]

end Holds

end JoinArrival

namespace Statement

open JoinArrival

variable {first last : Statement} {arrivals : List JoinArrival} {left right : JoinSide}
  {outer : Bool} {condition : Option Node}

/-- A join makes of its arrivals what they are due, and has what is held of them while it runs. -/
theorem Takes.holds
    (takes : first.Takes arrivals last)
    (fresh : first.buffers = .empty)
    (joins : first.plan.source = .join left right outer condition)
    {all : List JoinArrival}
    (isFirst : arrivals <+: all) :
    (last.stopped = false → Holds left right all arrivals.length last.buffers) ∧
      ∀ index arrival, arrivals[index]? = some arrival →
        arrival.made.rows = (due left right outer condition all index).map (rowAt all) := by
  induction takes with
  | start => exact ⟨fun _ => fresh ▸ .empty, nofun⟩
  | @event arrivals statement earlier running store event occasion inductionHypothesis =>
      obtain ⟨holds, made⟩ := inductionHypothesis ((List.prefix_append arrivals _).trans isFirst)
      have joined : statement.plan.source = .join left right outer condition :=
        earlier.plan.symm ▸ joins
      have rowsOf : statement.rowsOf event occasion =
          ({ statement with buffers := statement.buffers.hold left right event },
            .ofEvent left right outer condition statement.buffers event (1 :: occasion)) := by
        rw [Statement.rowsOf, joined]
      have arrived : all[arrivals.length]? =
          some ⟨event, occasion, (statement.rowsOf event occasion).2⟩ := by
        obtain ⟨rest, rfl⟩ := isFirst
        simp
      refine ⟨fun stillRunning => ?_, fun index arrival found => ?_⟩
      · rw [buffers_send _ _ _ _ stillRunning, rowsOf, List.length_append]
        exact (holds running).hold arrived
      · rcases Nat.lt_or_ge index arrivals.length with before | after
        · rw [List.getElem?_append_left before] at found
          exact made index arrival found
        · have isLast : index = arrivals.length := by
            have bound := (List.getElem?_eq_some_iff.mp found).1
            rw [List.length_append, List.length_singleton] at bound
            omega
          rw [isLast, List.getElem?_append_right (Nat.le_refl _), Nat.sub_self] at found
          cases found
          rw [isLast, ← (holds running).rows_ofEvent arrived, rowsOf]
  | time earlier store now occasion inductionHypothesis =>
      obtain ⟨holds, made⟩ := inductionHypothesis isFirst
      refine ⟨fun stillRunning => ?_, made⟩
      rw [buffers_advanceTime _ _ _ _ stillRunning]
      refine holds (Bool.eq_false_iff.mpr fun ended => ?_)
      cases stillRunning.symm.trans ((moves_advanceTime _ store now occasion).stays_stopped ended)

/-- A statement that is activated for a plan holds no events that can be joined. -/
theorem fresh_of_activate
    {id : StatementId}
    {plan : Plan}
    {store : StateStore}
    {settings : Settings}
    {patience : Nat}
    {now : Int}
    (activated : (activate id plan store settings patience now).2 = .ok first) :
    first.buffers = .empty ∧ first.plan = plan := by
  obtain ⟨groups, rfl⟩ := activate_eq_ok (Prod.ext rfl activated)
  exact ⟨rfl, rfl⟩

/--
A join makes each pair once.  What it makes at each event that it takes after its activation are the
rows of numbered arrivals, none of which it makes twice.  It makes the row of a left arrival and a
right one, which are never the same, at the later of the two if they are a pair, and never else.  An
outer join makes the row of a left arrival without a partner at this arrival if no right one that is
held then makes a pair with it, and never else.
-/
theorem Takes.makes_each_pair_once
    {id : StatementId}
    {plan : Plan}
    {store : StateStore}
    {settings : Settings}
    {patience : Nat}
    {now : Int}
    (activated : (activate id plan store settings patience now).2 = .ok first)
    (joins : plan.source = .join left right outer condition)
    (takes : first.Takes arrivals last) :
    ∃ due : Nat → List (Nat × Option Nat),
      ((List.range arrivals.length).flatMap due).Nodup ∧
        (∀ index arrival, arrivals[index]? = some arrival →
          arrival.made.rows = (due index).map (rowAt arrivals)) ∧
        (∀ index i j, (i, some j) ∈ due index ↔
          index = max i j ∧ i ≠ j ∧ Pairs arrivals left right condition i j) ∧
        ∀ index i, (i, none) ∈ due index ↔
          index = i ∧ outer = true ∧ isAt arrivals left i = true ∧
            ∀ j < i, ¬ Pairs arrivals left right condition i j := by
  have fresh := fresh_of_activate activated
  have rows := (takes.holds fresh.1 (fresh.2 ▸ joins) List.prefix_rfl).2
  refine ⟨due left right outer condition arrivals, nodup_flatMap_due, rows, ?_, ?_⟩
  · intro index i j
    rw [mem_due_some, and_iff_right_of_imp (a := i ≠ j) Pairs.ne]
  · exact fun index i => mem_due_none

/-- Each tick is joined with the tick before it when the price rises from the left to the right. -/
def risingTicks : Plan where
  name := none
  source :=
    .join ⟨"Tick", some 1⟩ ⟨"Tick", some 1⟩ true
      (some (.binary .lt (.access 0 "price" .int) (.access 1 "price" .int) .bool))
  width := 2
  aggregates := []
  condition := none
  groupBy := []
  columns := []

/-- A tick with a price. -/
def pricedTick (number : Nat) (price : Int64) : Event :=
  ⟨.given number, "Tick", [("price", .int price)]⟩

theorem Takes.makes_each_pair_once_risingTicks :
    ∃ first last arrivals,
      (activate 1 risingTicks .empty .standard 1 0).2 = .ok first ∧ first.Takes arrivals last ∧
        arrivals.map (fun arrival => arrival.made.rows) =
          [[[.event (pricedTick 0 1), .null]],
            [[.event (pricedTick 1 2), .null], [.event (pricedTick 0 1), .event (pricedTick 1 2)]],
            [[.event (pricedTick 2 1), .event (pricedTick 1 2)]]] ∧
        ∃ due : Nat → List (Nat × Option Nat),
          ((List.range 3).flatMap due).Nodup ∧ (0, some 1) ∈ due 1 ∧ (2, some 1) ∈ due 2 ∧
            (1, some 1) ∉ due 1 := by
  let first := idle 1 risingTicks .standard 1 0
  have takes : ∃ last, first.Takes _ last :=
    ⟨_, .event (.event (.event .start rfl .empty (pricedTick 0 1) [0]) rfl .empty
      (pricedTick 1 2) [1]) rfl .empty (pricedTick 2 1) [2]⟩
  obtain ⟨last, takes⟩ := takes
  have activated : (activate 1 risingTicks .empty .standard 1 0).2 = .ok first := rfl
  obtain ⟨due, once, -, pairs, -⟩ := makes_each_pair_once activated rfl takes
  refine ⟨first, last, _, activated, takes, rfl, due, once, ?_, ?_, ?_⟩
  · exact (pairs 1 0 1).mpr ⟨rfl, by decide, @Pairs.atRight _ _ _ _ 0 1 0 _ rfl rfl rfl rfl⟩
  · exact (pairs 2 2 1).mpr ⟨rfl, by decide, @Pairs.atLeft _ _ _ _ 2 1 0 _ rfl rfl rfl rfl⟩
  · exact fun isDue => ((pairs 1 1 1).mp isDue).2.1 rfl

end Statement

end EventQuery
