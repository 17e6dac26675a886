import EventQuery.Aggregate.ExtremeSet
import EventQuery.Proofs.Aggregate.Tallies
import EventQuery.Proofs.Binding.Conformance

namespace EventQuery

/-!
# Ordered counts of values

Values whose order is linear are kept faithfully: the counts stand in strict order and make up the
values that were put in and not taken out again, each as often as it is held.  So the first and the
last of them are the least and the greatest value held.
-/

/-- The types whose values have one linear order, in which only a value itself is equal to it. -/
def ValueType.linear : List ValueType := [.int, .str, .bool, .timestamp, .duration]

namespace Value

/-- Of two values the one that stands on a side of the other, and else the first one. -/
def outer (side : Ordering) (first second : Value) : Value :=
  if second.compare? first = some side then second else first

/-- The value that stands farthest on a side among some, or null without any. -/
def outermost (side : Ordering) : List Value → Value
  | [] => .null
  | first :: rest => rest.foldl (outer side) first

end Value

namespace ExtremeSet

/-! ## Linear orders -/

/-- The values of a kind have a linear order, by which they compare. -/
structure Linear (kind : Value → Prop) : Prop where
  compare?_eq : ∀ {left right}, kind left → kind right →
    left.compare? right = some (order left right)
  refl : ∀ {value}, kind value → order value value = .eq
  eq_of_eq : ∀ {left right}, kind left → kind right → order left right = .eq → left = right
  swap : ∀ {left right}, kind left → kind right → (order left right).swap = order right left
  trans : ∀ {first second third}, kind first → kind second → kind third →
    order first second = .lt → order second third = .lt → order first third = .lt

theorem Linear.orderly
    {kind : Value → Prop}
    (linear : Linear kind) :
    Orderly kind where
  swap isLeft isRight := (linear.swap isLeft isRight).symm
  trans := by
    intro first second third isFirst isSecond isThird before after
    cases isBefore : order first second with
    | lt =>
        cases isAfter : order second third with
        | lt => rw [linear.trans isFirst isSecond isThird isBefore isAfter]; rfl
        | eq => rw [← linear.eq_of_eq isSecond isThird isAfter, isBefore]; rfl
        | gt => rw [isAfter] at after; cases after
    | eq => exact linear.eq_of_eq isFirst isSecond isBefore ▸ after
    | gt => rw [isBefore] at before; cases before

/-- Values with keys that compare as the values do have a linear order if the keys have one. -/
private theorem linear_of_key
    {Content Key : Type}
    [Ord Key]
    [Std.TransOrd Key]
    [Std.LawfulEqOrd Key]
    {kind : Value → Prop}
    (make : Content → Value)
    (key : Content → Key)
    (isMade : ∀ value, kind value → ∃ content, value = make content)
    (compares : ∀ left right,
      (make left).compare? (make right) = some (compare (key left) (key right)))
    (orders : ∀ left right, order (make left) (make right) = compare (key left) (key right))
    (injective : ∀ left right, key left = key right → left = right) :
    Linear kind where
  compare?_eq := by
    intro left right isLeft isRight
    obtain ⟨left, rfl⟩ := isMade left isLeft
    obtain ⟨right, rfl⟩ := isMade right isRight
    rw [compares, orders]
  refl := by
    intro value isValue
    obtain ⟨content, rfl⟩ := isMade value isValue
    rw [orders]
    exact Std.ReflOrd.compare_self
  eq_of_eq := by
    intro left right isLeft isRight same
    obtain ⟨left, rfl⟩ := isMade left isLeft
    obtain ⟨right, rfl⟩ := isMade right isRight
    rw [orders] at same
    rw [injective left right (Std.LawfulEqOrd.eq_of_compare same)]
  swap := by
    intro left right isLeft isRight
    obtain ⟨left, rfl⟩ := isMade left isLeft
    obtain ⟨right, rfl⟩ := isMade right isRight
    rw [orders, orders]
    exact Std.OrientedOrd.eq_swap.symm
  trans := by
    intro first second third isFirst isSecond isThird before after
    obtain ⟨first, rfl⟩ := isMade first isFirst
    obtain ⟨second, rfl⟩ := isMade second isSecond
    obtain ⟨third, rfl⟩ := isMade third isThird
    rw [orders] at before after ⊢
    exact Std.TransCmp.lt_trans before after

/-- Integers, strings, Booleans, points of time and durations each have a linear order. -/
theorem linear_includes
    {type : ValueType}
    (isLinear : type ∈ ValueType.linear) :
    Linear fun value => type.Includes value ∧ value.isNull = false := by
  simp only [ValueType.linear, List.mem_cons, List.not_mem_nil, or_false] at isLinear
  rcases isLinear with rfl | rfl | rfl | rfl | rfl
  · refine linear_of_key .int Int64.toInt ?_ (fun _ _ => rfl) (fun _ _ => rfl)
      fun _ _ => Int64.toInt_inj.mp
    rintro value ⟨included, notNull⟩
    cases value with
    | null => cases notNull
    | int number => exact ⟨number, rfl⟩
    | _ => cases included
  · refine linear_of_key .str id ?_ (fun _ _ => rfl) (fun _ _ => rfl) fun _ _ => id
    rintro value ⟨included, notNull⟩
    cases value with
    | null => cases notNull
    | str text => exact ⟨text, rfl⟩
    | _ => cases included
  · refine linear_of_key .bool id ?_ (fun _ _ => rfl) (fun _ _ => rfl) fun _ _ => id
    rintro value ⟨included, notNull⟩
    cases value with
    | null => cases notNull
    | bool truth => exact ⟨truth, rfl⟩
    | _ => cases included
  · refine linear_of_key .timestamp Int64.toInt ?_ (fun _ _ => rfl) (fun _ _ => rfl)
      fun _ _ => Int64.toInt_inj.mp
    rintro value ⟨included, notNull⟩
    cases value with
    | null => cases notNull
    | timestamp nanos => exact ⟨nanos, rfl⟩
    | _ => cases included
  · refine linear_of_key .duration UInt64.toNat ?_ (fun _ _ => rfl) (fun _ _ => rfl)
      fun _ _ => UInt64.toNat_inj.mp
    rintro value ⟨included, notNull⟩
    cases value with
    | null => cases notNull
    | duration nanos => exact ⟨nanos, rfl⟩
    | _ => cases included

/-! ## Counts -/

/-- The values that counts make up, each as often as it is counted. -/
def copies (counts : List (Value × Nat)) : List Value :=
  counts.flatMap fun entry => List.replicate entry.2 entry.1

theorem copies_append
    (front behind : List (Value × Nat)) :
    copies (front ++ behind) = copies front ++ copies behind :=
  List.flatMap_append

theorem copies_cons
    (entry : Value × Nat)
    (rest : List (Value × Nat)) :
    copies (entry :: rest) = List.replicate entry.2 entry.1 ++ copies rest :=
  List.flatMap_cons

theorem mem_copies
    {counts : List (Value × Nat)}
    {value : Value} :
    value ∈ copies counts ↔ ∃ entry ∈ counts, 0 < entry.2 ∧ entry.1 = value := by
  simp only [copies, List.mem_flatMap, List.mem_replicate, Nat.pos_iff_ne_zero, eq_comm]

/-- Counts of values of a kind stand in strict order and make up some values. -/
structure Counted (kind : Value → Prop) (counts : List (Value × Nat)) (values : List Value) :
    Prop where
  inOrder : counts.Pairwise fun earlier later => order earlier.1 later.1 = .lt
  positive : ∀ entry ∈ counts, 0 < entry.2
  ofKind : ∀ entry ∈ counts, kind entry.1
  perm : (copies counts).Perm values

namespace Counted

section Changes

variable {kind : Value → Prop} {counts : List (Value × Nat)} {values : List Value} {value : Value}

/-- What is made up by counts is of their kind. -/
theorem kind_of_mem
    (counted : Counted kind counts values)
    (member : value ∈ values) :
    kind value := by
  obtain ⟨entry, isEntry, _, rfl⟩ := mem_copies.mp (counted.perm.mem_iff.mpr member)
  exact counted.ofKind entry isEntry

theorem arranged
    (counted : Counted kind counts values) :
    Arranged kind counts :=
  ⟨counted.inOrder, counted.positive, counted.ofKind⟩

theorem of_arranged
    (arranged : Arranged kind counts)
    (perm : (copies counts).Perm values) :
    Counted kind counts values :=
  ⟨arranged.inOrder, arranged.positive, arranged.ofKind, perm⟩

end Changes

end Counted

/-- A set keeps values of a kind when its counts make them up. -/
def Keeps (kind : Value → Prop) (set : ExtremeSet) (values : List Value) : Prop :=
  Counted kind set.counts values

theorem keeps_empty (kind : Value → Prop) : Keeps kind empty [] := ⟨.nil, nofun, nofun, .nil⟩

namespace Keeps

variable {kind : Value → Prop} {set : ExtremeSet} {values : List Value} {value : Value}

/-- A value that is put in is kept. -/
theorem insert
    (keeps : Keeps kind set values)
    (linear : Linear kind)
    (isKind : kind value) :
    Keeps kind (set.insert value) (values ++ [value]) := by
  have arranged := keeps.arranged
  have perm := keeps.perm
  have moved : (value :: values).Perm (values ++ [value]) :=
    (List.perm_append_singleton value values).symm
  rw [Keeps]
  rcases arranged.insert_cases linear.orderly isKind with
    ⟨front, behind, isCounts, inserted, before, after⟩ |
      ⟨front, held, count, behind, isCounts, inserted, same⟩
  · rw [isCounts] at arranged perm
    rw [inserted]
    refine .of_arranged (arranged.put isKind before after) ?_
    rw [copies_append] at perm
    rw [copies_append, copies_cons]
    exact List.perm_middle.trans ((perm.cons value).trans moved)
  · rw [isCounts] at arranged perm
    obtain rfl := linear.eq_of_eq isKind (arranged.ofKind (held, count) (by simp)) same
    rw [inserted]
    refine .of_arranged (arranged.recount (Nat.succ_pos count)) ?_
    rw [copies_append, copies_cons] at perm ⊢
    exact List.perm_middle.trans ((perm.cons value).trans moved)

/-- The oldest value is taken out again. -/
theorem erase
    (keeps : Keeps kind set (value :: values))
    (linear : Linear kind) :
    Keeps kind (set.erase value) values := by
  have isKind : kind value := keeps.kind_of_mem List.mem_cons_self
  have arranged := keeps.arranged
  have perm := keeps.perm
  rw [Keeps]
  rcases arranged.erase_cases linear.orderly isKind with
    ⟨_, apart⟩ | ⟨front, held, count, behind, isCounts, same, erased⟩
  · obtain ⟨⟨held, count⟩, isEntry, _, rfl⟩ :=
      mem_copies.mp (perm.mem_iff.mpr List.mem_cons_self)
    exact absurd (linear.refl isKind) (apart _ isEntry)
  · rw [isCounts] at arranged perm
    obtain rfl := linear.eq_of_eq isKind (arranged.ofKind (held, count) (by simp)) same
    have positive : 0 < count := arranged.positive (value, count) (by simp)
    rw [erased]
    rw [copies_append, copies_cons] at perm
    obtain ⟨fewer, rfl⟩ := Nat.exists_eq_add_one.mpr positive
    have left : (copies front ++ (List.replicate fewer value ++ copies behind)).Perm values :=
      (List.perm_middle.symm.trans perm).cons_inv
    split
    next isLast =>
      obtain rfl : fewer = 0 := by omega
      refine .of_arranged arranged.remove ?_
      rw [copies_append]
      exact left
    next notLast =>
      refine .of_arranged (arranged.recount (by omega)) ?_
      rw [copies_append, copies_cons, Nat.add_sub_cancel]
      exact left

end Keeps

/-! ## Extremes -/

section Extremes

variable {kind : Value → Prop} {side : Ordering} {best first second : Value} {values : List Value}

/-- Of two values the one that the other stands on a side of is the outer one. -/
private theorem Linear.outer_eq
    (linear : Linear kind)
    (isSide : side ≠ .eq)
    (isFirst : kind first)
    (isSecond : kind second)
    (one : best = first ∨ best = second)
    (firstBehind : first = best ∨ order best first = side)
    (secondBehind : second = best ∨ order best second = side) :
    Value.outer side first second = best := by
  simp only [Value.outer, linear.compare?_eq isSecond isFirst, Option.some.injEq]
  rcases one with rfl | rfl
  · split
    next ahead =>
        refine secondBehind.resolve_right fun behind => isSide ?_
        rw [← linear.swap isSecond isFirst, ahead] at behind
        cases side <;> first | rfl | cases behind
    next => rfl
  · split
    next => rfl
    next notAhead => exact firstBehind.resolve_right notAhead

private theorem outer_cases
    (side : Ordering)
    (first second : Value) :
    Value.outer side first second = first ∨ Value.outer side first second = second := by
  rw [Value.outer]
  split
  · exact .inr rfl
  · exact .inl rfl

/-- A value that all others stand on a side of is the outermost one. -/
theorem Linear.outermost_eq
    (linear : Linear kind)
    (isSide : side ≠ .eq)
    (ofKind : ∀ value ∈ values, kind value)
    (member : best ∈ values)
    (behind : ∀ value ∈ values, value = best ∨ order best value = side) :
    Value.outermost side values = best := by
  obtain ⟨first, rest, rfl⟩ := List.exists_cons_of_ne_nil (List.ne_nil_of_mem member)
  rw [Value.outermost]
  induction rest generalizing first with
  | nil => exact (List.mem_singleton.mp member).symm
  | cons second rest inductionHypothesis =>
      rw [List.forall_mem_cons, List.forall_mem_cons] at ofKind behind
      obtain ⟨isFirst, isSecond, ofRest⟩ := ofKind
      obtain ⟨firstBehind, secondBehind, restBehind⟩ := behind
      rw [List.foldl_cons]
      refine inductionHypothesis _ ?_ ?_ ?_
      · refine List.forall_mem_cons.mpr ⟨?_, ofRest⟩
        rcases outer_cases side first second with same | same <;> rw [same]
        · exact isFirst
        · exact isSecond
      · rw [List.mem_cons, List.mem_cons, ← or_assoc] at member
        refine List.mem_cons.mpr (member.imp_left fun one => ?_)
        exact (linear.outer_eq isSide isFirst isSecond one firstBehind secondBehind).symm
      · refine List.forall_mem_cons.mpr ⟨?_, restBehind⟩
        rcases outer_cases side first second with same | same <;> rw [same]
        · exact firstBehind
        · exact secondBehind

variable {set : ExtremeSet}

/-- An entry that all other counts stand on a side of holds the outermost value. -/
theorem Keeps.outermost_eq
    (keeps : Keeps kind set values)
    (linear : Linear kind)
    (isSide : side ≠ .eq)
    {entry : Value × Nat}
    (isEntry : entry ∈ set.counts)
    (behind : ∀ other ∈ set.counts, other = entry ∨ order entry.1 other.1 = side) :
    Value.outermost side values = entry.1 := by
  refine linear.outermost_eq isSide (fun value => keeps.kind_of_mem) ?_ fun value member => ?_
  · exact keeps.perm.mem_iff.mp (mem_copies.mpr ⟨entry, isEntry, keeps.positive entry isEntry, rfl⟩)
  · obtain ⟨other, isOther, _, rfl⟩ := mem_copies.mp (keeps.perm.mem_iff.mpr member)
    exact (behind other isOther).imp_left (congrArg Prod.fst)

theorem Keeps.outermost_nil
    (keeps : Keeps kind set values)
    (noCounts : set.counts = []) :
    Value.outermost side values = .null := by
  have perm := keeps.perm
  rw [noCounts] at perm
  rw [perm.nil_eq.symm, Value.outermost]

/-- The first value in order is the least one held. -/
theorem Keeps.least_eq
    (keeps : Keeps kind set values)
    (linear : Linear kind) :
    set.least = Value.outermost .lt values := by
  cases isCounts : set.counts with
  | nil =>
      rw [keeps.outermost_nil isCounts, least, isCounts]
      rfl
  | cons entry rest =>
      have behind : ∀ other ∈ set.counts, other = entry ∨ order entry.1 other.1 = .lt := by
        have inOrder := keeps.inOrder
        rw [isCounts] at inOrder ⊢
        exact fun other member =>
          (List.mem_cons.mp member).imp_right (List.rel_of_pairwise_cons inOrder)
      rw [keeps.outermost_eq linear (by decide) (isCounts ▸ List.mem_cons_self) behind, least,
        isCounts]
      rfl

/-- The last value in order is the greatest one held. -/
theorem Keeps.greatest_eq
    (keeps : Keeps kind set values)
    (linear : Linear kind) :
    set.greatest = Value.outermost .gt values := by
  rcases List.eq_nil_or_concat set.counts with isCounts | ⟨front, entry, isCounts⟩
  · rw [keeps.outermost_nil isCounts, greatest, isCounts]
    rfl
  · have isEntry : entry ∈ set.counts := by simp [isCounts]
    have behind : ∀ other ∈ set.counts, other = entry ∨ order entry.1 other.1 = .gt := by
      intro other isOther
      have member := isOther
      rw [isCounts, List.concat_eq_append, List.mem_append, List.mem_singleton] at member
      refine member.symm.imp_right fun inFront => ?_
      have inOrder := keeps.inOrder
      rw [isCounts, List.concat_eq_append] at inOrder
      have before := (List.pairwise_append.mp inOrder).2.2 other inFront entry (by simp)
      rw [← linear.swap (keeps.ofKind other isOther) (keeps.ofKind entry isEntry), before]
      rfl
    rw [keeps.outermost_eq linear (by decide) isEntry behind, greatest, isCounts]
    simp [Value.ofOption]

end Extremes

end ExtremeSet

end EventQuery
