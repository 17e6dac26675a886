import EventQuery.Builtin

namespace EventQuery

/-!
# Points of time at a distance

A point of time is moved by a duration, later or earlier.  A timestamp has 64 bits with a sign and a
duration 64 bits without one, and a duration is read as a number with a sign.  So the result is exact
for a duration in the lower half of its range, as long as a timestamp can hold it.  Longer durations
are read as going the other way, and a result that no timestamp can hold becomes the first moment of
1970; a result is never null.
-/

namespace Word

/-- The word that stands for a checked integer, or zero for an integer outside the range. -/
theorem toInt_getD_checked
    (n : Int) :
    ((checked n).getD 0).toInt = if fits n then n else 0 := by
  rw [checked]
  split
  next inside => exact toInt_ofInt_of_fits inside
  next => rfl

end Word

namespace CalendarMethod

/-- The point of time at a distance, or null when no timestamp can hold it. -/
def momentAt (nanos : Int64) (distance : Int) : Value :=
  Value.ofOption ((Word.checked (nanos.toInt + distance)).map .timestamp)

/-- Whether a duration is in the lower half of its range. -/
def IsShort (distance : UInt64) : Prop := distance.toNat < 9223372036854775808

/-- The number of nanoseconds that a duration is read as. -/
def signed (distance : UInt64) : Int := distance.toInt64.toInt

theorem signed_of_isShort
    {distance : UInt64}
    (isShort : IsShort distance) :
    signed distance = distance.toNat := by
  change distance.toBitVec.toInt = distance.toNat
  rw [BitVec.toInt_eq_toNat_cond, UInt64.toNat_toBitVec, if_pos]
  rw [IsShort] at isShort
  omega

theorem signed_of_not_isShort
    {distance : UInt64}
    (isLong : ¬ IsShort distance) :
    signed distance = distance.toNat - 18446744073709551616 := by
  change distance.toBitVec.toInt = distance.toNat - 18446744073709551616
  rw [BitVec.toInt_eq_toNat_cond, UInt64.toNat_toBitVec, if_neg]
  · rfl
  · rw [IsShort] at isLong
    omega

/-- A timestamp is the moment at a distance exactly when it stands for that moment. -/
theorem timestamp_eq_momentAt_iff
    {nanos word : Int64}
    {distance : Int} :
    Value.timestamp word = momentAt nanos distance ↔
      Word.fits (nanos.toInt + distance) = true ∧ word.toInt = nanos.toInt + distance := by
  rw [momentAt, Word.checked]
  split
  next inside =>
      rw [Option.map_some, Value.ofOption, Option.getD_some, Value.timestamp.injEq,
        ← Int64.toInt_inj, Word.toInt_ofInt_of_fits inside]
      exact (and_iff_right inside).symm
  next outside => simp [outside, Value.ofOption]

/-- How a method moves a point of time by a duration, in the direction of a sign. -/
structure Shifts (method : CalendarMethod) (sign : Int) (nanos : Int64) (distance : UInt64) :
    Prop where
  /-- A short duration leads to its moment, or to the first one of 1970 if that does not fit. -/
  short : IsShort distance →
    method.apply nanos [.duration distance] =
      .ok (.timestamp ((Word.checked (nanos.toInt + sign * distance.toNat)).getD 0))
  /-- A long duration leads the other way, as far as it is short of its whole range. -/
  long : ¬ IsShort distance →
    method.apply nanos [.duration distance] =
      .ok (.timestamp ((Word.checked
        (nanos.toInt + sign * (distance.toNat - 18446744073709551616))).getD 0))
  /-- The result is the exact one for short durations and moments that fit. -/
  exact_iff :
    method.apply nanos [.duration distance] = .ok (momentAt nanos (sign * distance.toNat)) ↔
      Word.fits (nanos.toInt + sign * distance.toNat) = true ∧
        (IsShort distance ∨ nanos.toInt + sign * distance.toNat = 0)

/-- A method shifts when it moves by the number that a duration is read as. -/
theorem shifts_of_apply
    {method : CalendarMethod}
    {sign : Int}
    {nanos : Int64}
    {distance : UInt64}
    (isSign : sign = 1 ∨ sign = -1)
    (applied : method.apply nanos [.duration distance] =
      .ok (shifted nanos (sign * signed distance))) :
    Shifts method sign nanos distance where
  short isShort := by rw [applied, shifted, signed_of_isShort isShort]
  long isLong := by rw [applied, shifted, signed_of_not_isShort isLong]
  exact_iff := by
    rw [applied, Except.ok.injEq, shifted, timestamp_eq_momentAt_iff, Word.toInt_getD_checked]
    refine and_congr_right fun inside => ?_
    by_cases isShort : IsShort distance
    · rw [signed_of_isShort isShort, if_pos inside]
      exact iff_of_true rfl (.inl isShort)
    · -- what is read is a whole range of words away from the exact moment, and so does not fit
      have outside : ¬ Word.fits (nanos.toInt + sign * signed distance) = true := by
        rw [Word.fits_iff] at inside ⊢
        rw [signed_of_not_isShort isShort]
        rcases isSign with rfl | rfl <;> omega
      rw [if_neg outside, or_iff_right isShort, eq_comm]

/--
A point of time that is moved by a duration is the exact one, or null when no timestamp can hold that,
exactly when the duration is short and the moment fits; the first moment of 1970 is reached besides.
Then the later point of time is not before the first one, and it is moved back to that one.
-/
theorem shifts_exactly
    (nanos : Int64)
    (distance : UInt64) :
    Shifts .plus 1 nanos distance ∧ Shifts .minus (-1) nanos distance ∧
      (IsShort distance → Word.fits (nanos.toInt + distance.toNat) = true →
        ∃ later, plus.apply nanos [.duration distance] = .ok (.timestamp later) ∧
          later.toInt = nanos.toInt + distance.toNat ∧ nanos.toInt ≤ later.toInt ∧
          minus.apply later [.duration distance] = .ok (.timestamp nanos)) := by
  have forward : ∀ moment, Shifts .plus 1 moment distance := fun _ => shifts_of_apply (.inl rfl) rfl
  have back : ∀ moment, Shifts .minus (-1) moment distance :=
    fun _ => shifts_of_apply (.inr rfl) rfl
  refine ⟨forward nanos, back nanos, fun isShort inside => ?_⟩
  have stands := Word.toInt_ofInt_of_fits inside
  refine ⟨Int64.ofInt (nanos.toInt + distance.toNat), ?_, stands, by omega, ?_⟩
  · rw [(forward nanos).short isShort, Int.one_mul, Word.checked, if_pos inside]
    rfl
  · have returned : nanos.toInt + distance.toNat + -1 * distance.toNat = nanos.toInt := by omega
    rw [(back _).short isShort, stands, returned, Word.checked, if_pos (Word.fits_toInt nanos),
      Int64.ofInt_toInt]
    rfl

/--
One nanosecond after the last timestamp comes the first moment of 1970, and the least duration that is
not short leads from there to the first timestamp.  No timestamp can hold the exact moments.
-/
theorem not_shifts_exactly :
    (plus.apply Int64.maxValue [.duration 1] = .ok (.timestamp 0) ∧
        momentAt Int64.maxValue 1 = .null) ∧
      plus.apply 0 [.duration 9223372036854775808] = .ok (.timestamp Int64.minValue) ∧
        momentAt 0 9223372036854775808 = .null :=
  ⟨⟨rfl, rfl⟩, rfl, rfl⟩

end CalendarMethod

end EventQuery
