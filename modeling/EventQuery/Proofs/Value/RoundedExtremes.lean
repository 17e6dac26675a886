import EventQuery.Builtin
import EventQuery.Proofs.Aggregate.Recount
import EventQuery.Proofs.Number.Binary64
import Mathlib.Data.List.Induction

namespace EventQuery

/-!
# The least and the greatest integer of a collection

Comparison and the aggregation functions take integers as they are, but the methods of a collection
that choose its least or its greatest number compare numbers as floating-point numbers.  Integers
that are rounded to the same number are equal there, and the first of them is chosen.  So the choice
is exact when the extreme integer stands before all others that are rounded as it is, and only then.
-/

namespace Accumulator

/-- The result of a function for some values, entered one after the other. -/
def resultOf (windowed : Bool) (kind : AggregateKind) (items : List Value) : Except Fault Value := do
  let held ← items.foldlM (fun held item => held.enter (some item)) (empty windowed kind)
  return held.value

/-- Values of a kind are tracked when they are entered one after the other. -/
theorem Tracks.foldlM_enter
    {ofKind : Value → Prop}
    {kind : AggregateKind}
    {held : Accumulator}
    {inputs : List (Option Value)}
    (linear : ExtremeSet.Linear ofKind)
    (tracks : Tracks ofKind inputs kind held)
    {items : List Value}
    (areKind : ∀ item ∈ items, item.isNull = false → ofKind item) :
    ∃ changed, items.foldlM (fun held item => held.enter (some item)) held = .ok changed ∧
      Tracks ofKind (inputs ++ items.map some) kind changed := by
  induction items generalizing held inputs with
  | nil => exact ⟨held, rfl, (List.append_nil inputs).symm ▸ tracks⟩
  | cons item rest inductionHypothesis =>
      obtain ⟨isKind, restKind⟩ := List.forall_mem_cons.mp areKind
      have isInput : (Value.ofOption (some item)).isNull = false →
          ofKind (Value.ofOption (some item)) := isKind
      obtain ⟨entered, isEntered, tracksEntered⟩ := tracks.enter linear isInput
      obtain ⟨changed, isChanged, tracksChanged⟩ := inductionHypothesis tracksEntered restKind
      refine ⟨changed, ?_, ?_⟩
      · rw [List.foldlM_cons, isEntered]
        exact isChanged
      · rw [List.map_cons, List.append_cons]
        exact tracksChanged

end Accumulator

/-! ## Sides of an integer -/

section Sides

variable {side : Ordering} {first second third : Int}

private theorem self_not_side
    (isSide : side = .lt ∨ side = .gt) :
    compare first first ≠ side := by
  rcases isSide with rfl | rfl <;> simp

private theorem side_trans
    (before : compare first second = side)
    (after : compare second third = side) :
    compare first third = side := by
  cases side <;> simp only [compare_lt_iff_lt, compare_gt_iff_gt, compare_eq_iff_eq] at * <;> omega

private theorem side_of_not
    (isSide : side = .lt ∨ side = .gt)
    (before : compare first second = side)
    (notBefore : compare third second ≠ side) :
    compare first third = side := by
  rcases isSide with rfl | rfl <;>
    simp only [ne_eq, compare_lt_iff_lt, compare_gt_iff_gt] at * <;> omega

private theorem side_or_eq_iff
    (isSide : side = .lt ∨ side = .gt) :
    compare first second = side ∨ compare first second = .eq ↔ compare second first ≠ side := by
  rcases isSide with rfl | rfl <;>
    simp only [ne_eq, compare_lt_iff_lt, compare_gt_iff_gt, compare_eq_iff_eq] at * <;> omega

private theorem eq_of_not_side
    (isSide : side = .lt ∨ side = .gt)
    (notBefore : compare first second ≠ side)
    (notAfter : compare second first ≠ side) :
    first = second := by
  rcases isSide with rfl | rfl <;>
    simp only [ne_eq, compare_lt_iff_lt, compare_gt_iff_gt] at * <;> omega

end Sides

namespace EnumerationMethod

/-- The elements of a collection of integers and nulls. -/
def integers (numbers? : List (Option Int64)) : List Value :=
  numbers?.map fun number? => Value.ofOption (number?.map .int)

theorem integers_append
    (front : List (Option Int64))
    (number? : Option Int64) :
    integers (front ++ [number?]) = integers front ++ [Value.ofOption (number?.map .int)] := by
  simp only [integers, List.map_append, List.map_singleton]

variable {side : Ordering} {numbers? : List (Option Int64)} {value other : Value}
  {number best : Int64}

/-! ## The extreme by comparison -/

/-- An integer that compares as equal to every integer or as standing on a side of it, and null
without integers. -/
inductive IsExtreme (side : Ordering) (numbers? : List (Option Int64)) : Value → Prop
  | nothing
      (noNumber : ∀ number, some number ∉ numbers?) :
      IsExtreme side numbers? .null
  | number
      {best : Int64}
      (isNumber : some best ∈ numbers?)
      (ahead : ∀ number, some number ∈ numbers? →
        (Value.int best).compare? (.int number) = some side ∨
          (Value.int best).compare? (.int number) = some .eq) :
      IsExtreme side numbers? (.int best)

/-- An integer is extreme when no other one stands on the side of it. -/
theorem isExtreme_number_iff
    (isSide : side = .lt ∨ side = .gt) :
    IsExtreme side numbers? (.int best) ↔
      some best ∈ numbers? ∧
        ∀ number, some number ∈ numbers? → compare number.toInt best.toInt ≠ side := by
  constructor
  · rintro (_ | ⟨isNumber, ahead⟩)
    refine ⟨isNumber, fun number member => (side_or_eq_iff isSide).mp ?_⟩
    simpa only [Value.compare?, Option.some.injEq] using ahead number member
  · rintro ⟨isNumber, notBehind⟩
    refine .number isNumber fun number member => ?_
    simpa only [Value.compare?, Option.some.injEq] using
      (side_or_eq_iff isSide).mpr (notBehind number member)

/-- The first integer is extreme when no later one stands on the side of it. -/
theorem isExtreme_cons
    (isSide : side = .lt ∨ side = .gt)
    (notBehind : ∀ other, some other ∈ numbers? → compare other.toInt number.toInt ≠ side) :
    IsExtreme side (some number :: numbers?) (.int number) := by
  refine (isExtreme_number_iff isSide).mpr ⟨List.mem_cons_self, ?_⟩
  simpa only [List.mem_cons, Option.some.injEq, forall_eq_or_imp] using
    ⟨self_not_side isSide, notBehind⟩

/-- A null is not chosen. -/
theorem IsExtreme.cons_none
    (extreme : IsExtreme side numbers? value) :
    IsExtreme side (none :: numbers?) value := by
  cases extreme with
  | nothing noNumber => exact .nothing (by simpa using noNumber)
  | number isNumber ahead =>
      exact .number (List.mem_cons_of_mem _ isNumber) (by simpa using ahead)

/-- There is only one extreme. -/
theorem IsExtreme.unique
    (isSide : side = .lt ∨ side = .gt)
    (first : IsExtreme side numbers? value)
    (second : IsExtreme side numbers? other) :
    value = other := by
  have isFirst := first
  have isSecond := second
  cases first with
  | nothing noNumber =>
      cases second with
      | nothing => rfl
      | number isNumber => exact absurd isNumber (noNumber _)
  | number isNumber =>
      cases second with
      | nothing noNumber => exact absurd isNumber (noNumber _)
      | number isOther =>
          have notBehind := ((isExtreme_number_iff isSide).mp isFirst).2 _ isOther
          have notAhead := ((isExtreme_number_iff isSide).mp isSecond).2 _ isNumber
          rw [Int64.toInt_inj.mp (eq_of_not_side isSide notBehind notAhead)]

/-- There is an extreme. -/
theorem exists_isExtreme
    (isSide : side = .lt ∨ side = .gt)
    (numbers? : List (Option Int64)) :
    ∃ value, IsExtreme side numbers? value := by
  induction numbers? with
  | nil => exact ⟨.null, .nothing (fun _ => List.not_mem_nil)⟩
  | cons number? rest inductionHypothesis =>
      obtain ⟨value, extreme⟩ := inductionHypothesis
      cases number? with
      | none => exact ⟨value, extreme.cons_none⟩
      | some number =>
          cases extreme with
          | nothing noNumber =>
              exact ⟨_, isExtreme_cons isSide fun other member => absurd member (noNumber other)⟩
          | @number best isNumber ahead =>
              obtain ⟨_, notBehind⟩ :=
                (isExtreme_number_iff isSide).mp (.number isNumber ahead)
              by_cases further : compare number.toInt best.toInt = side
              · exact ⟨_, isExtreme_cons isSide fun other member behind =>
                  notBehind other member (side_trans behind further)⟩
              · refine ⟨.int best, (isExtreme_number_iff isSide).mpr
                  ⟨List.mem_cons_of_mem _ isNumber, ?_⟩⟩
                simpa only [List.mem_cons, Option.some.injEq, forall_eq_or_imp] using
                  ⟨further, notBehind⟩

/-! ## The choice among rounded integers -/

/-- Whether an integer stands on a side of another one when both are rounded. -/
def RoundsAhead (side : Ordering) (number other : Int64) : Prop :=
  (Binary64.ofInt number.toInt).compare? (Binary64.ofInt other.toInt) = some side

/-- Rounded integers compare as the places where they stand. -/
theorem roundsAhead_iff :
    RoundsAhead side number best ↔
      compare (Binary64.ofInt number.toInt).place (Binary64.ofInt best.toInt).place = side := by
  have isNumber := Binary64.ofInt_isNaN (Word.natAbs_toInt_lt number)
  have isBest := Binary64.ofInt_isNaN (Word.natAbs_toInt_lt best)
  rw [RoundsAhead, Binary64.compare?, isNumber, isBest, if_neg (by decide), Option.some.injEq]

/-- No integer is passed by one that does not stand on the side of it. -/
theorem not_roundsAhead
    (isSide : side = .lt ∨ side = .gt)
    (notAhead : compare number.toInt best.toInt ≠ side) :
    ¬ RoundsAhead side number best := by
  rw [roundsAhead_iff]
  rcases isSide with rfl | rfl
  · rw [ne_eq, compare_lt_iff_lt, not_lt] at notAhead
    rw [compare_lt_iff_lt, not_lt]
    exact Binary64.place_ofInt_mono notAhead (Word.natAbs_toInt_lt best)
      (Word.natAbs_toInt_lt number)
  · rw [ne_eq, compare_gt_iff_gt, not_lt] at notAhead
    rw [compare_gt_iff_gt, not_lt]
    exact Binary64.place_ofInt_mono notAhead (Word.natAbs_toInt_lt number)
      (Word.natAbs_toInt_lt best)

/-- An integer that is rounded to a number ahead of those of all integers before it, and that no later
one is rounded to a number ahead of; null without integers. -/
inductive IsLeader (side : Ordering) (numbers? : List (Option Int64)) : Value → Prop
  | nothing
      (noNumber : ∀ number, some number ∉ numbers?) :
      IsLeader side numbers? .null
  | number
      {before after : List (Option Int64)}
      {best : Int64}
      (split : numbers? = before ++ some best :: after)
      (passes : ∀ number, some number ∈ before → RoundsAhead side best number)
      (stays : ∀ number, some number ∈ after → ¬ RoundsAhead side number best) :
      IsLeader side numbers? (.int best)

namespace IsLeader

theorem append_none
    (leader : IsLeader side numbers? value) :
    IsLeader side (numbers? ++ [none]) value := by
  cases leader with
  | nothing noNumber => exact .nothing (by simpa using noNumber)
  | number split passes stays =>
      refine .number (by rw [split, List.append_assoc, List.cons_append]) passes ?_
      simpa using stays

theorem append_first
    (leader : IsLeader side numbers? .null)
    (number : Int64) :
    IsLeader side (numbers? ++ [some number]) (.int number) := by
  obtain ⟨noNumber⟩ := leader
  exact .number rfl (fun other member => absurd member (noNumber other))
    fun _ => (absurd · List.not_mem_nil)

/-- An integer that is rounded to a number ahead takes the lead. -/
theorem append_ahead
    (leader : IsLeader side numbers? (.int best))
    (isSide : side = .lt ∨ side = .gt)
    (ahead : RoundsAhead side number best) :
    IsLeader side (numbers? ++ [some number]) (.int number) := by
  obtain _ | ⟨rfl, passes, stays⟩ := leader
  refine .number rfl (fun other member => ?_) fun _ => (absurd · List.not_mem_nil)
  rw [roundsAhead_iff] at ahead ⊢
  simp only [List.mem_append, List.mem_cons, Option.some.injEq] at member
  rcases member with member | rfl | member
  · exact side_trans ahead (roundsAhead_iff.mp (passes other member))
  · exact ahead
  · exact side_of_not isSide ahead (mt roundsAhead_iff.mpr (stays other member))

/-- Any other integer leaves the lead. -/
theorem append_behind
    (leader : IsLeader side numbers? (.int best))
    (notAhead : ¬ RoundsAhead side number best) :
    IsLeader side (numbers? ++ [some number]) (.int best) := by
  cases leader with
  | number split passes stays =>
      refine .number (by rw [split, List.append_assoc, List.cons_append]) passes ?_
      simpa only [List.mem_append, List.mem_singleton, Option.some.injEq, or_imp, forall_and,
        forall_eq] using ⟨stays, notAhead⟩

end IsLeader

/-- A number is chosen when it is better than the one chosen before it, or the first one. -/
theorem extreme_append
    (better : Binary64 → Binary64 → Bool)
    (items : List Value)
    (item : Value) :
    extreme better (items ++ [item]) =
      if item.asFloat?.any fun number => (extreme better items).asFloat?.all (better number) then item
      else extreme better items := by
  rw [extreme, extreme, List.foldl_append, List.foldl_cons, List.foldl_nil]
  generalize isBest : List.foldl _ none items = best
  have isNumber : ∀ held ∈ best, held.1.asFloat? = some held.2 := by
    rw [← isBest]
    refine List.foldlRecOn (motive := fun best : Option (Value × Binary64) =>
      ∀ held ∈ best, held.1.asFloat? = some held.2) items _
      (fun held isHeld => absurd isHeld (Option.not_mem_none held)) fun best holds item _ => ?_
    split
    next => exact holds
    next number holder isNumber =>
        split
        next => exact fun held isHeld => Option.mem_some.mp isHeld ▸ isNumber
        next => exact holds
    next number isNumber => exact fun held isHeld => Option.mem_some.mp isHeld ▸ isNumber
  cases best with
  | none => cases item.asFloat? <;> rfl
  | some held =>
      have isHeld : (Value.ofOption (some held.1)).asFloat? = some held.2 := isNumber held rfl
      rw [Option.map_some, isHeld]
      cases item.asFloat? with
      | none => rfl
      | some number =>
          simp only [Option.any_some, Option.all_some]
          split <;> rfl

/-- The best number so far leads all integers so far. -/
theorem isLeader_extreme
    (isSide : side = .lt ∨ side = .gt)
    {better : Binary64 → Binary64 → Bool}
    (isBetter : ∀ number holder, better number holder = true ↔ number.compare? holder = some side)
    (numbers? : List (Option Int64)) :
    IsLeader side numbers? (extreme better (integers numbers?)) := by
  induction numbers? using List.reverseRecOn with
  | nil => exact .nothing fun _ => List.not_mem_nil
  | append_singleton front number? inductionHypothesis =>
      rw [integers_append, extreme_append]
      generalize extreme better (integers front) = chosen at *
      cases number? with
      | none => exact inductionHypothesis.append_none
      | some number =>
          cases inductionHypothesis with
          | nothing noNumber => exact (IsLeader.nothing noNumber).append_first number
          | @number before after best split passes stays =>
              have leader : IsLeader side front (.int best) := .number split passes stays
              simp only [Value.ofOption, Option.map_some, Option.getD_some, Value.asFloat?,
                Option.any_some, Option.all_some, isBetter]
              split
              next ahead => exact leader.append_ahead isSide ahead
              next notAhead => exact leader.append_behind notAhead

/-! ## When the choice is exact -/

/-- Whether an integer that is extreme stands before all others that are rounded as it is. -/
def Leads (side : Ordering) (numbers? : List (Option Int64)) : Prop :=
  ∀ best, IsExtreme side numbers? (.int best) →
    ∃ before after, numbers? = before ++ some best :: after ∧
      ∀ number, some number ∈ before →
        (Binary64.ofInt number.toInt).equals (Binary64.ofInt best.toInt) = false

/-- Of two places in a list the first is the second, or one is before the other. -/
private theorem splits_cases
    {Item : Type}
    {before after front behind : List Item}
    {first second : Item}
    (same : before ++ first :: after = front ++ second :: behind) :
    first = second ∨ (first ∈ front ∧ second ∈ after) ∨ second ∈ before := by
  rcases List.append_eq_append_iff.mp same with ⟨mid, rfl, isRest⟩ | ⟨mid, rfl, isRest⟩
  · rcases List.cons_eq_append_iff.mp isRest with ⟨rfl, isRest⟩ | ⟨between, rfl, rfl⟩
    · exact .inl (List.cons_eq_cons.mp isRest).1
    · exact .inr (.inl (by simp))
  · rcases List.cons_eq_append_iff.mp isRest with ⟨rfl, isRest⟩ | ⟨between, rfl, rfl⟩
    · exact .inl (List.cons_eq_cons.mp isRest).1.symm
    · exact .inr (.inr (by simp))

theorem equals_ofInt_iff :
    (Binary64.ofInt number.toInt).equals (Binary64.ofInt best.toInt) = true ↔
      (Binary64.ofInt number.toInt).place = (Binary64.ofInt best.toInt).place := by
  have isNumber := Binary64.ofInt_isNaN (Word.natAbs_toInt_lt number)
  have isBest := Binary64.ofInt_isNaN (Word.natAbs_toInt_lt best)
  rw [Binary64.equals_iff, isNumber, isBest]
  simp only [true_and]

/-- The first integer of those with the extreme rounding is extreme when the extreme leads. -/
theorem IsLeader.isExtreme_iff
    (isSide : side = .lt ∨ side = .gt)
    (leader : IsLeader side numbers? value) :
    IsExtreme side numbers? value ↔ Leads side numbers? := by
  cases leader with
  | nothing noNumber =>
      refine iff_of_true (.nothing noNumber) fun best extreme => ?_
      exact absurd ((isExtreme_number_iff isSide).mp extreme).1 (noNumber best)
  | @number before after best split passes stays =>
      constructor
      · intro extreme other isOther
        cases extreme.unique isSide isOther
        refine ⟨before, after, split, fun number member => ?_⟩
        rw [Bool.eq_false_iff, ne_eq, equals_ofInt_iff]
        intro same
        have ahead := roundsAhead_iff.mp (passes number member)
        rw [same] at ahead
        exact self_not_side isSide ahead
      · intro leads
        obtain ⟨value, extreme⟩ := exists_isExtreme isSide numbers?
        have isBest : some best ∈ numbers? := by simp [split]
        have isExtreme := extreme
        cases extreme with
        | nothing noNumber => exact absurd isBest (noNumber best)
        | @number farthest isNumber ahead =>
            obtain ⟨front, behind, splitLeads, apart⟩ := leads farthest isExtreme
            have notAhead : ¬ RoundsAhead side best farthest :=
              not_roundsAhead isSide (((isExtreme_number_iff isSide).mp isExtreme).2 best isBest)
            rcases splits_cases (split.symm.trans splitLeads) with
              same | ⟨inFront, inAfter⟩ | inBefore
            · cases same
              exact isExtreme
            · have same := eq_of_not_side isSide (mt roundsAhead_iff.mpr notAhead)
                (mt roundsAhead_iff.mpr (stays farthest inAfter))
              have isApart := apart best inFront
              rw [equals_ofInt_iff.mpr same] at isApart
              cases isApart
            · exact absurd (passes farthest inBefore) notAhead

/-- Integers of at most 53 digits are rounded to different numbers. -/
theorem leads_of_small
    (isSide : side = .lt ∨ side = .gt)
    (small : ∀ number, some number ∈ numbers? → number.toInt.natAbs ≤ 2 ^ 53) :
    Leads side numbers? := by
  intro best extreme
  obtain ⟨isBest, _⟩ := (isExtreme_number_iff isSide).mp extreme
  obtain ⟨before, after, split, notBefore⟩ := List.eq_append_cons_of_mem isBest
  refine ⟨before, after, split, fun number member => ?_⟩
  have isNumber : some number ∈ numbers? := by simp [split, member]
  rw [Bool.eq_false_iff, ne_eq, equals_ofInt_iff]
  intro same
  have isSame := Binary64.eq_of_place_ofInt same (small number isNumber) (small best isBest)
  exact notBefore (Int64.toInt_inj.mp isSame ▸ member)

/-! ## Agreement with the aggregation functions -/

/-- The values that are entered are the integers of the collection. -/
theorem mem_present_integers :
    value ∈ AggregateKind.present ((integers numbers?).map some) ↔
      ∃ number, some number ∈ numbers? ∧ value = .int number := by
  simp only [AggregateKind.present, integers, List.mem_filter, List.mem_map]
  constructor
  · rintro ⟨⟨_, ⟨_, ⟨number?, member, rfl⟩, rfl⟩, rfl⟩, notNull⟩
    cases number? with
    | none => cases notNull
    | some number => exact ⟨number, member, rfl⟩
  · rintro ⟨number, member, rfl⟩
    exact ⟨⟨_, ⟨_, ⟨_, member, rfl⟩, rfl⟩, rfl⟩, rfl⟩

/-- The extreme is the outermost value of those that are entered. -/
theorem IsExtreme.eq_outermost
    (isSide : side = .lt ∨ side = .gt)
    (extreme : IsExtreme side numbers? value) :
    Value.outermost side (AggregateKind.present ((integers numbers?).map some)) = value := by
  cases extreme with
  | nothing noNumber =>
      have noValue : AggregateKind.present ((integers numbers?).map some) = [] := by
        refine List.eq_nil_iff_forall_not_mem.mpr fun value member => ?_
        obtain ⟨number, isNumber, _⟩ := mem_present_integers.mp member
        exact noNumber number isNumber
      rw [noValue, Value.outermost]
  | @number best isNumber ahead =>
      have notEq : side ≠ .eq := by rcases isSide with rfl | rfl <;> decide
      have linear := ExtremeSet.linear_includes (by decide : ValueType.int ∈ ValueType.linear)
      have isValue := mem_present_integers.mpr ⟨best, isNumber, rfl⟩
      have ofPresent : ∀ value ∈ AggregateKind.present ((integers numbers?).map some),
          ValueType.int.Includes value ∧ value.isNull = false := by
        intro value member
        obtain ⟨number, _, rfl⟩ := mem_present_integers.mp member
        exact ⟨trivial, rfl⟩
      refine linear.outermost_eq notEq ofPresent isValue fun value member => ?_
      obtain ⟨number, isNumber, rfl⟩ := mem_present_integers.mp member
      rcases ahead number isNumber with further | same
      · have ordered := linear.compare?_eq (ofPresent _ isValue) (ofPresent _ member)
        exact .inr (Option.some.inj (ordered.symm.trans further))
      · rw [Value.compare?, Option.some.injEq, compare_eq_iff_eq, Int64.toInt_inj] at same
        exact .inl (congrArg Value.int same.symm)

/-- The aggregation that chooses the outermost value gives the extreme. -/
theorem isExtreme_resultOf
    {kind : AggregateKind}
    (windowed : Bool)
    (isSide : side = .lt ∨ side = .gt)
    (starts : ∀ ofKind, Accumulator.Tracks ofKind [] kind (.empty windowed kind))
    (recounts : ∀ inputs, kind.recount inputs = Value.outermost side (AggregateKind.present inputs))
    (numbers? : List (Option Int64)) :
    ∃ value, Accumulator.resultOf windowed kind (integers numbers?) = .ok value ∧
      IsExtreme side numbers? value := by
  have linear := ExtremeSet.linear_includes (by decide : ValueType.int ∈ ValueType.linear)
  obtain ⟨value, extreme⟩ := exists_isExtreme isSide numbers?
  have areIntegers : ∀ item ∈ integers numbers?, item.isNull = false →
      ValueType.int.Includes item ∧ item.isNull = false := by
    intro item member notNull
    obtain ⟨number?, _, rfl⟩ := List.mem_map.mp member
    cases number? with
    | none => cases notNull
    | some number => exact ⟨trivial, rfl⟩
  obtain ⟨held, isHeld, tracks⟩ := (starts _).foldlM_enter linear areIntegers
  refine ⟨value, ?_, extreme⟩
  rw [Accumulator.resultOf, isHeld]
  change Except.ok held.value = _
  rw [tracks.value_eq linear, recounts, List.nil_append, extreme.eq_outermost isSide]

/-- How the choice of a method is related to comparison and to an aggregation function. -/
structure Chooses (method : EnumerationMethod) (kind : AggregateKind) (side : Ordering)
    (numbers? : List (Option Int64)) : Prop where
  /-- Of the integers with the extreme rounding the first one is chosen. -/
  leader : IsLeader side numbers? (method.apply (integers numbers?) [])
  exact_iff : IsExtreme side numbers? (method.apply (integers numbers?) []) ↔ Leads side numbers?
  /-- The aggregation function yields the extreme, and the method the same when it is exact. -/
  result_iff : ∀ windowed, ∃ value,
    Accumulator.resultOf windowed kind (integers numbers?) = .ok value ∧
      IsExtreme side numbers? value ∧
      (method.apply (integers numbers?) [] = value ↔ Leads side numbers?)
  /-- Integers of at most 53 digits are told apart. -/
  of_small :
    (∀ number, some number ∈ numbers? → number.toInt.natAbs ≤ 2 ^ 53) → Leads side numbers?

/-- A method that keeps the better one of two rounded integers chooses the one on its side. -/
theorem chooses_of_better
    {method : EnumerationMethod}
    {kind : AggregateKind}
    {better : Binary64 → Binary64 → Bool}
    (isSide : side = .lt ∨ side = .gt)
    (isBetter : ∀ number holder, better number holder = true ↔ number.compare? holder = some side)
    (applied : method.apply (integers numbers?) [] = extreme better (integers numbers?))
    (starts : ∀ windowed ofKind, Accumulator.Tracks ofKind [] kind (.empty windowed kind))
    (recounts : ∀ inputs,
      kind.recount inputs = Value.outermost side (AggregateKind.present inputs)) :
    Chooses method kind side numbers? := by
  have leader : IsLeader side numbers? (method.apply (integers numbers?) []) :=
    applied ▸ isLeader_extreme isSide isBetter numbers?
  refine ⟨leader, leader.isExtreme_iff isSide, fun windowed => ?_, leads_of_small isSide⟩
  obtain ⟨value, isValue, extreme⟩ :=
    isExtreme_resultOf windowed isSide (starts windowed) recounts numbers?
  refine ⟨value, isValue, extreme, ?_⟩
  rw [← leader.isExtreme_iff isSide]
  exact ⟨fun same => same ▸ extreme, fun chosen => chosen.unique isSide extreme⟩

/--
The least and the greatest integer that the methods choose are those of comparison and of the
aggregation functions exactly when these stand before all others that are rounded as they are.
-/
theorem chooses_extremes
    (numbers? : List (Option Int64)) :
    Chooses .minOf .min .lt numbers? ∧ Chooses .maxOf .max .gt numbers? := by
  constructor
  · refine chooses_of_better (.inl rfl) (fun number holder => ?_) rfl (fun _ _ => ?_) fun _ => rfl
    · rw [Binary64.below, beq_iff_eq]
    · exact .min (ExtremeSet.keeps_empty _)
  · refine chooses_of_better (.inr rfl) (fun number holder => ?_) rfl (fun _ _ => ?_) fun _ => rfl
    · rw [Binary64.below, beq_iff_eq, Binary64.compare?_eq_lt_iff]
    · exact .max (ExtremeSet.keeps_empty _)

/--
The least integers above zero that are rounded to one number: the one that stands first is chosen as
the least one and as the greatest one, and is not the one that comparison and aggregation find.
-/
theorem not_chooses_extremes :
    (minOf.apply (integers [some 9007199254740993, some 9007199254740992]) [] =
        .int 9007199254740993 ∧
      ¬ IsExtreme .lt [some 9007199254740993, some 9007199254740992] (.int 9007199254740993) ∧
      Accumulator.resultOf false .min (integers [some 9007199254740993, some 9007199254740992]) =
        .ok (.int 9007199254740992)) ∧
    maxOf.apply (integers [some 9007199254740992, some 9007199254740993]) [] =
        .int 9007199254740992 ∧
      ¬ IsExtreme .gt [some 9007199254740992, some 9007199254740993] (.int 9007199254740992) ∧
      Accumulator.resultOf false .max (integers [some 9007199254740992, some 9007199254740993]) =
        .ok (.int 9007199254740993) := by
  refine ⟨⟨rfl, fun extreme => ?_, rfl⟩, rfl, fun extreme => ?_, rfl⟩
  · exact ((isExtreme_number_iff (.inl rfl)).mp extreme).2 9007199254740992 (by decide) (by decide)
  · exact ((isExtreme_number_iff (.inr rfl)).mp extreme).2 9007199254740993 (by decide) (by decide)

end EnumerationMethod

end EventQuery
