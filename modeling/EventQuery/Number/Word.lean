namespace EventQuery

/-!
# Signed 64-bit results

Arithmetic on 64-bit integers is done on integers and brought back into the machine range.  A
checked result is absent when it does not fit.
-/

namespace Word

/-- Whether an integer is in the signed 64-bit range. -/
def fits (n : Int) : Bool := Int64.minValue.toInt ≤ n && n ≤ Int64.maxValue.toInt

/-- The word of an integer, absent outside the range. -/
def checked (n : Int) : Option Int64 := if fits n then some (Int64.ofInt n) else none

theorem fits_iff
    {n : Int} :
    fits n = true ↔ -9223372036854775808 ≤ n ∧ n < 9223372036854775808 := by
  rw [fits, Bool.and_eq_true, decide_eq_true_iff, decide_eq_true_iff, Int64.toInt_minValue,
    Int64.toInt_maxValue]
  omega

/-- The word of an integer in the range stands for that integer. -/
theorem toInt_ofInt_of_fits
    {n : Int}
    (inside : fits n = true) :
    (Int64.ofInt n).toInt = n :=
  Int64.toInt_ofInt_of_le (fits_iff.mp inside).1 (fits_iff.mp inside).2

/-- What a word stands for is in the range. -/
theorem fits_toInt
    (word : Int64) :
    fits word.toInt = true :=
  fits_iff.mpr ⟨word.le_toInt, word.toInt_lt⟩

end Word

end EventQuery
