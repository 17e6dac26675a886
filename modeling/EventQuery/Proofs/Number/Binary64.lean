import EventQuery.Number.Binary64
import EventQuery.Number.Word
import Mathlib

namespace EventQuery

/-!
# Words of floating-point numbers

The word of a floating-point number is its sign bit and its magnitude.  Two numbers are equal when
they stand at the same place on the line, and then they are the same word or both zero.

An integer becomes the nearest floating-point number, and of two equally near ones the one with the
even mantissa.  What the machine arithmetic computes is followed down to its words: an integer
beyond 53 digits keeps its leading ones and loses its order with its neighbours, but never passes
one of them, and an integer of at most 53 digits is kept as it is.
-/

namespace Word

theorem natAbs_toInt_lt (word : Int64) : word.toInt.natAbs < 2 ^ 64 := by
  have lower := word.le_toInt
  have upper := word.toInt_lt
  omega

end Word

namespace Binary64

/-! ## Signs and magnitudes -/

section Words

variable {x y : Binary64}

/-- The magnitude is what the word is without its first bit. -/
theorem magnitude_eq (x : Binary64) : x.magnitude = x.bits.toNat % 2 ^ 63 := by
  rw [magnitude, UInt64.toNat_and]
  exact Nat.and_two_pow_sub_one_eq_mod x.bits.toNat 63

/-- The sign bit is the first bit. -/
theorem isNegative_iff : x.isNegative = true ↔ 2 ^ 63 ≤ x.bits.toNat := by
  have bound := x.bits.toNat_lt
  have isBit : (x.bits &&& signMask).toNat = (x.bits.toNat.testBit 63).toNat * 2 ^ 63 := by
    rw [UInt64.toNat_and]
    exact Nat.and_two_pow x.bits.toNat 63
  rw [isNegative, bne_iff_ne, ne_eq, ← UInt64.toNat_inj, isBit, Nat.testBit_eq_decide_div_mod_eq]
  simp only [UInt64.toNat_zero, Nat.mul_eq_zero, Bool.toNat_eq_zero, decide_eq_false_iff_not]
  omega

/-- A word is known by its sign and its magnitude. -/
theorem eq_of_sign_of_magnitude
    (sameSign : x.isNegative = y.isNegative)
    (sameMagnitude : x.magnitude = y.magnitude) :
    x = y := by
  have boundX := x.bits.toNat_lt
  have boundY := y.bits.toNat_lt
  rw [Bool.eq_iff_iff, isNegative_iff, isNegative_iff] at sameSign
  rw [magnitude_eq, magnitude_eq] at sameMagnitude
  have sameBits : x.bits = y.bits := UInt64.toNat_inj.mp (by omega)
  exact congrArg mk sameBits

/-- Numbers are equal when they stand at the same place. -/
theorem equals_iff :
    x.equals y = true ↔ x.isNaN = false ∧ y.isNaN = false ∧ x.place = y.place := by
  rw [equals, compare?]
  cases x.isNaN <;> cases y.isNaN <;> simp

/-- A number is below another one when that one is above it. -/
theorem compare?_eq_lt_iff : x.compare? y = some .lt ↔ y.compare? x = some .gt := by
  rw [compare?, compare?, Bool.or_comm]
  split
  · simp
  · rw [Option.some.injEq, Option.some.injEq]
    exact Std.OrientedCmp.gt_iff_lt.symm

/-- The places of numbers are the same for the same word, and for zeros with any signs. -/
theorem place_eq_iff : x.place = y.place ↔ x = y ∨ x.magnitude = 0 ∧ y.magnitude = 0 := by
  constructor
  · intro same
    by_cases sameSign : x.isNegative = y.isNegative
    · refine .inl (eq_of_sign_of_magnitude sameSign ?_)
      rw [place, place, sameSign] at same
      split at same <;> omega
    · have signs : x.isNegative = !y.isNegative := Bool.eq_not.mpr sameSign
      rw [place, place, signs] at same
      generalize y.isNegative = negative at same
      refine .inr ?_
      cases negative with
      | false =>
          change -(x.magnitude : Int) = y.magnitude at same
          omega
      | true =>
          change (x.magnitude : Int) = -y.magnitude at same
          omega
  · rintro (rfl | ⟨zeroX, zeroY⟩)
    · rfl
    · simp [place, zeroX, zeroY]

end Words

open Float.Model Float.Model.UnpackedFloat

/-! ## The quotient by a power of two -/

/-- The whole number nearest to a quotient by a power of two, a tie going to the even one. -/
def nearest (number shift : Nat) : Nat :=
  number / 2 ^ shift +
    if 2 ^ shift < 2 * (number % 2 ^ shift) ∨
        2 * (number % 2 ^ shift) = 2 ^ shift ∧ number / 2 ^ shift % 2 = 1 then 1 else 0

theorem nearest_mono
    {number larger : Nat}
    (shift : Nat)
    (below : number ≤ larger) :
    nearest number shift ≤ nearest larger shift := by
  have splits := Nat.div_add_mod number (2 ^ shift)
  have splitsLarger := Nat.div_add_mod larger (2 ^ shift)
  have quotients : number / 2 ^ shift ≤ larger / 2 ^ shift := Nat.div_le_div_right below
  rw [nearest, nearest]
  generalize 2 ^ shift = size at *
  rcases Nat.lt_or_eq_of_le quotients with less | same
  · split <;> split <;> omega
  · rw [same] at splits ⊢
    have remainders : number % size ≤ larger % size := by omega
    split <;> split <;> omega

/-- A multiple of the power of two is divided without a rest. -/
theorem nearest_multiple
    (number shift : Nat) :
    nearest (number * 2 ^ shift) shift = number := by
  have positive := Nat.two_pow_pos shift
  simp [nearest, Nat.mul_div_cancel _ positive, positive.ne]

/-- Divided down to 53 digits, a number has 53 digits, unless it is rounded up to the next power. -/
theorem nearest_bounds
    {number : Nat}
    (large : 52 ≤ number.log2) :
    2 ^ 52 ≤ nearest number (number.log2 - 52) ∧ nearest number (number.log2 - 52) ≤ 2 ^ 53 := by
  have nonzero : number ≠ 0 := by
    rintro rfl
    contradiction
  have lower : 2 ^ 52 * 2 ^ (number.log2 - 52) ≤ number := by
    rw [← Nat.pow_add, Nat.add_sub_cancel' large]
    exact Nat.log2_self_le nonzero
  have upper : number ≤ 2 ^ 53 * 2 ^ (number.log2 - 52) := by
    have total : 53 + (number.log2 - 52) = number.log2 + 1 := by omega
    rw [← Nat.pow_add, total]
    exact Nat.lt_log2_self.le
  have first := nearest_mono (number.log2 - 52) lower
  have last := nearest_mono (number.log2 - 52) upper
  rw [nearest_multiple] at first last
  exact ⟨first, last⟩

theorem log2_mul_two_pow
    {number : Nat}
    (shift : Nat)
    (nonzero : number ≠ 0) :
    (number * 2 ^ shift).log2 = number.log2 + shift := by
  have positive := Nat.two_pow_pos shift
  rw [Nat.log2_eq_iff (Nat.mul_ne_zero nonzero positive.ne'), Nat.add_right_comm, Nat.pow_add,
    Nat.pow_add]
  exact ⟨Nat.mul_le_mul_right _ (Nat.log2_self_le nonzero),
    Nat.mul_lt_mul_of_pos_right Nat.lt_log2_self positive⟩

/-! ## Shifting with a round bit and a sticky bit -/

/-- The round bit is the first digit shifted out, and the sticky bit tells whether a later one is
set. -/
theorem shiftRight_eq
    (number shift : Nat) :
    ExtendedMantissa.mk number false false >>> shift =
      ⟨number / 2 ^ shift, decide (2 ^ shift ≤ 2 * (number % 2 ^ shift)),
        decide (2 * (number % 2 ^ shift) % 2 ^ shift ≠ 0)⟩ := by
  change Nat.repeat ExtendedMantissa.shiftRightOne shift _ = _
  induction shift with
  | zero => simp [Nat.repeat, Nat.mod_one]
  | succ shift inductionHypothesis =>
      rw [Nat.repeat, inductionHypothesis, ExtendedMantissa.shiftRightOne]
      have bound := Nat.mod_lt number (Nat.two_pow_pos shift)
      have split : number % 2 ^ (shift + 1) =
          number % 2 ^ shift + 2 ^ shift * (number / 2 ^ shift % 2) := Nat.mod_pow_succ
      have double : 2 ^ (shift + 1) = 2 ^ shift * 2 := Nat.pow_succ 2 shift
      rw [split, double, ExtendedMantissa.mk.injEq, ← Nat.div_div_eq_div_mul]
      generalize 2 ^ shift = size at *
      generalize number % size = rest at *
      have twice : 2 * (rest + size * (number / size % 2)) % (size * 2) = 2 * rest := by
        rw [Nat.mul_add, ← Nat.mul_assoc, Nat.mul_comm 2 size, Nat.add_mul_mod_self_left]
        exact Nat.mod_eq_of_lt (by omega)
      have wraps : 2 * rest % size = 0 ↔ 2 * rest = 0 ∨ 2 * rest = size := by
        rcases Nat.lt_or_ge (2 * rest) size with lower | higher
        · rw [Nat.mod_eq_of_lt lower]
          omega
        · rw [Nat.mod_eq_sub_mod higher, Nat.mod_eq_of_lt (by omega)]
          omega
      refine ⟨rfl, ?_, ?_⟩
      · rcases Nat.mod_two_eq_zero_or_one (number / size) with isEven | isOdd
        · simp [isEven]
          omega
        · simp [isOdd]
          omega
      · rw [twice, ← Bool.decide_or, decide_eq_decide, ne_eq, wraps]
        omega

/-- The two bits are enough to round the quotient. -/
theorem roundedMantissa_shiftRight
    (number shift : Nat) :
    (ExtendedMantissa.mk number false false >>> shift).roundedMantissa = nearest number shift := by
  rw [shiftRight_eq, nearest]
  have bound := Nat.mod_lt number (Nat.two_pow_pos shift)
  generalize 2 ^ shift = size at *
  generalize number % size = rest at *
  rcases Nat.lt_trichotomy (2 * rest) size with lower | tie | higher
  · have noRound : decide (size ≤ 2 * rest) = false := decide_eq_false lower.not_ge
    rw [noRound, if_neg (by omega)]
    cases decide (2 * rest % size ≠ 0) <;> rfl
  · have isRound : decide (size ≤ 2 * rest) = true := decide_eq_true tie.ge
    have noSticky : decide (2 * rest % size ≠ 0) = false := by simp [tie]
    rw [isRound, noSticky]
    change number / size + number / size % 2 = _
    rcases Nat.mod_two_eq_zero_or_one (number / size) with isEven | isOdd
    · simp [isEven, tie]
    · simp [isOdd, tie]
  · have isRound : decide (size ≤ 2 * rest) = true := decide_eq_true higher.le
    have isSticky : decide (2 * rest % size ≠ 0) = true := by
      rw [decide_eq_true_iff, Nat.mod_eq_sub_mod higher.le, Nat.mod_eq_of_lt (by omega)]
      omega
    rw [isRound, isSticky, if_pos (.inl higher)]
    rfl

/-! ## Normal numbers -/

/--
A mantissa of 53 digits with an exponent that the word of a number has a place for.
-/
structure Normal (mantissa : Nat) (exponent : Int) : Prop where
  mantissa_ge : 2 ^ 52 ≤ mantissa
  mantissa_lt : mantissa < 2 ^ 53
  exponent_ge : -1074 ≤ exponent
  exponent_le : exponent ≤ 971

namespace Normal

variable {mantissa : Nat} {exponent : Int}

theorem log2_eq
    (normal : Normal mantissa exponent) :
    mantissa.log2 = 52 := by
  have least := normal.mantissa_ge
  rw [Nat.log2_eq_iff (by omega)]
  exact ⟨least, normal.mantissa_lt⟩

/-- The fields of the word: the leading digit of the mantissa is left out. -/
theorem pack_eq
    (normal : Normal mantissa exponent)
    (sign : Sign)
    (positive : 0 < mantissa) :
    UnpackedFloat.pack Format.binary64 (.finite sign mantissa exponent positive) =
      packComponents Format.binary64 sign (BitVec.ofNat 11 (exponent + 1075).toNat)
        (BitVec.ofNat 52 mantissa) := by
  have upper := normal.exponent_le
  have field : exponent + (Format.binary64.exponentBias : Int) +
      (Format.binary64.mantissaBitsWithoutImplicit : Int) = exponent + 1075 := by
    change exponent + 1023 + 52 = exponent + 1075
    omega
  have inside : ¬ 2 ^ 11 ≤ (exponent + 1075).toNat + 1 := by omega
  rw [UnpackedFloat.pack, field, normal.log2_eq, if_neg inside, if_pos]
  rfl

theorem toNat_pack
    (normal : Normal mantissa exponent)
    (sign : Sign)
    (positive : 0 < mantissa) :
    (UnpackedFloat.pack Format.binary64 (.finite sign mantissa exponent positive)).toNat =
      sign.toBitVec.toNat * 2 ^ 63 + (exponent + 1075).toNat * 2 ^ 52 + (mantissa - 2 ^ 52) := by
  have upper := normal.exponent_le
  have least := normal.mantissa_ge
  have most := normal.mantissa_lt
  rw [normal.pack_eq, packComponents]
  simp only [BitVec.toNat_append, BitVec.toNat_ofNat]
  rw [← Nat.shiftLeft_add_eq_or_of_lt (Nat.mod_lt _ (Nat.two_pow_pos 11)),
    ← Nat.shiftLeft_add_eq_or_of_lt (Nat.mod_lt _ (Nat.two_pow_pos 52))]
  simp only [Nat.shiftLeft_eq]
  omega

/-- A normal number is read back from its word. -/
theorem unpack_pack
    (normal : Normal mantissa exponent)
    (sign : Sign)
    (positive : 0 < mantissa) :
    UnpackedFloat.unpack Format.binary64
        (UnpackedFloat.pack Format.binary64 (.finite sign mantissa exponent positive)) =
      .finite sign mantissa exponent positive := by
  have lower := normal.exponent_ge
  have upper := normal.exponent_le
  have least := normal.mantissa_ge
  have most := normal.mantissa_lt
  have field : (BitVec.ofNat 11 (exponent + 1075).toNat).toNat = (exponent + 1075).toNat := by
    rw [BitVec.toNat_ofNat]
    omega
  have notLast : BitVec.ofNat 11 (exponent + 1075).toNat ≠ -1#11 := by
    rw [ne_eq, ← BitVec.toNat_inj, field]
    simp only [BitVec.neg_one_eq_allOnes, BitVec.toNat_allOnes]
    omega
  have notFirst : BitVec.ofNat 11 (exponent + 1075).toNat ≠ 0#11 := by
    rw [ne_eq, ← BitVec.toNat_inj, field]
    simp only [BitVec.toNat_ofNat]
    omega
  have digits : (1#1 ++ BitVec.ofNat 52 mantissa).toNat = mantissa := by
    rw [BitVec.toNat_append, ← Nat.shiftLeft_add_eq_or_of_lt (BitVec.isLt _), BitVec.toNat_ofNat,
      BitVec.toNat_ofNat, Nat.shiftLeft_eq]
    omega
  have bias : (Format.binary64.exponentBias : Int) = 1023 := rfl
  simp only [normal.pack_eq, UnpackedFloat.unpack, unpackMantissa_packComponents,
    unpackExponent_packComponents, unpackSign_packComponents, Sign.ofBitVec_toBitVec,
    if_neg notLast, if_neg notFirst, digits, field, bias]
  congr 1
  omega

end Normal

/-! ## Rounding to 53 digits -/

/-- A number of more than 53 digits is shifted down to 53 digits. -/
theorem shiftToTargetExponent_eq
    {mantissa : Nat}
    (exponent : Int)
    (least : 2 ^ 52 ≤ mantissa)
    (lower : -1074 ≤ exponent + (mantissa.log2 - 52 : Nat)) :
    shiftToTargetExponent Format.binary64 mantissa exponent .exact =
      (ExtendedMantissa.mk mantissa false false >>> (mantissa.log2 - 52),
        exponent + (mantissa.log2 - 52 : Nat)) := by
  have large : 52 ≤ mantissa.log2 := (Nat.le_log2 (by omega)).mpr least
  have target : Format.binary64.targetExponent (totalExponent mantissa exponent) =
      exponent + (mantissa.log2 - 52 : Nat) := by
    change max ((mantissa.log2 : Int) + 1 + exponent - 53) (-1074) = _
    omega
  have amount :
      (exponent + (mantissa.log2 - 52 : Nat) - exponent).toNat = mantissa.log2 - 52 := by
    omega
  simp only [shiftToTargetExponent, target, shiftToExponent, amount,
    ExtendedMantissa.ofMantissaAndAccuracy]

/-- What rounding gives, where the rounded mantissa is brought to 53 digits once more. -/
theorem roundWithAccuracy_eq
    {mantissa rounded : Nat}
    {exponent final : Int}
    (sign : Sign)
    (least : 2 ^ 52 ≤ mantissa)
    (lower : -1074 ≤ exponent + (mantissa.log2 - 52 : Nat))
    (again :
      shiftToTargetExponent Format.binary64 (nearest mantissa (mantissa.log2 - 52))
        (exponent + (mantissa.log2 - 52 : Nat)) .exact = (⟨rounded, false, false⟩, final))
    (positive : 0 < rounded) :
    roundWithAccuracy Format.binary64 sign mantissa exponent .exact =
      .finite sign rounded final positive := by
  unfold roundWithAccuracy
  simp only [shiftToTargetExponent_eq exponent least lower, roundedMantissa_shiftRight, again]
  exact dif_neg positive.ne'

/--
A number of 53 digits or more is rounded to a normal number.  Its exponent and its mantissa are
given as one sum, which a mantissa that is rounded up to the next power of two carries into.
-/
theorem roundWithAccuracy_normal
    {mantissa : Nat}
    {exponent : Int}
    (sign : Sign)
    (least : 2 ^ 52 ≤ mantissa)
    (lower : -1074 ≤ exponent + (mantissa.log2 - 52 : Nat))
    (upper : exponent + (mantissa.log2 - 52 : Nat) ≤ 970) :
    ∃ rounded final positive,
      Normal rounded final ∧
      roundWithAccuracy Format.binary64 sign mantissa exponent .exact =
        .finite sign rounded final positive ∧
      (final + 1074) * 2 ^ 52 + rounded =
        (exponent + (mantissa.log2 - 52 : Nat) + 1074) * 2 ^ 52 +
          nearest mantissa (mantissa.log2 - 52) := by
  obtain ⟨first, last⟩ := nearest_bounds ((Nat.le_log2 (by omega)).mpr least)
  have again :=
    shiftToTargetExponent_eq (exponent + (mantissa.log2 - 52 : Nat)) first (by omega)
  rcases Nat.lt_or_eq_of_le last with inside | atEnd
  · have normal : Normal (nearest mantissa (mantissa.log2 - 52))
        (exponent + (mantissa.log2 - 52 : Nat)) := ⟨first, inside, lower, by omega⟩
    rw [normal.log2_eq, Nat.sub_self, Int.natCast_zero, Int.add_zero] at again
    exact ⟨_, _, by omega, normal, roundWithAccuracy_eq sign least lower again _, rfl⟩
  · -- The mantissa is a power of two, and its last digit is not needed.
    have halved : ExtendedMantissa.mk (2 ^ 53) false false >>> (53 - 52) = ⟨2 ^ 52, false, false⟩ :=
      rfl
    rw [atEnd, Nat.log2_two_pow, halved, ← atEnd] at again
    exact ⟨2 ^ 52, _, by omega, ⟨le_rfl, by omega, by omega, by omega⟩,
      roundWithAccuracy_eq sign least lower again _, by omega⟩

/-- A normal number is kept, also when its mantissa is written with more digits. -/
theorem Normal.roundWithAccuracy_scaled
    {mantissa : Nat}
    {exponent : Int}
    (normal : Normal mantissa exponent)
    (sign : Sign)
    (shift : Nat)
    (positive : 0 < mantissa) :
    roundWithAccuracy Format.binary64 sign (mantissa * 2 ^ shift) (exponent - shift) .exact =
      .finite sign mantissa exponent positive := by
  have digits : (mantissa * 2 ^ shift).log2 - 52 = shift := by
    rw [log2_mul_two_pow shift positive.ne', normal.log2_eq, Nat.add_sub_cancel_left]
  have lower := normal.exponent_ge
  have least : 2 ^ 52 ≤ mantissa * 2 ^ shift :=
    normal.mantissa_ge.trans (Nat.le_mul_of_pos_right _ (Nat.two_pow_pos shift))
  have again := shiftToTargetExponent_eq exponent normal.mantissa_ge (by omega)
  rw [normal.log2_eq, Nat.sub_self, Int.natCast_zero, Int.add_zero] at again
  refine roundWithAccuracy_eq sign least (by rw [digits]; omega) ?_ positive
  rw [digits, nearest_multiple, Int.sub_add_cancel]
  exact again

/-! ## Integers -/

/--
The magnitude of the number nearest to a whole number: its exponent field and its mantissa, of
which the leading digit is carried into the field.
-/
def wholeMagnitude (number : Nat) : Nat :=
  if number = 0 then 0
  else (number.log2 + 1022) * 2 ^ 52 + nearest (number * 2 ^ 53) (number.log2 + 1)

/-- A whole number of at most 53 digits, with all 53 of them. -/
theorem normal_of_lt
    {number : Nat}
    (nonzero : number ≠ 0)
    (small : number < 2 ^ 53) :
    Normal (number * 2 ^ (52 - number.log2)) (number.log2 - 52) ∧
      (number.log2 - 52 + 1074 : Int) * 2 ^ 52 + (number * 2 ^ (52 - number.log2) : Nat) =
        wholeMagnitude number := by
  have bits : number.log2 < 53 := (Nat.log2_lt nonzero).mpr small
  have digits : (number * 2 ^ (52 - number.log2)).log2 = 52 := by
    rw [log2_mul_two_pow _ nonzero, Nat.add_sub_cancel' (by omega)]
  obtain ⟨least, most⟩ :=
    (Nat.log2_eq_iff (Nat.mul_ne_zero nonzero (Nat.two_pow_pos _).ne')).mp digits
  have split : number * 2 ^ 53 = number * 2 ^ (52 - number.log2) * 2 ^ (number.log2 + 1) := by
    have total : 52 - number.log2 + (number.log2 + 1) = 53 := by omega
    rw [Nat.mul_assoc, ← Nat.pow_add, total]
  refine ⟨⟨least, most, by omega, by omega⟩, ?_⟩
  rw [wholeMagnitude, if_neg nonzero, split, nearest_multiple]
  omega

/-- A whole number of at most 53 digits is kept by its conversion from a machine word. -/
theorem ofUInt64_eq
    {number : Nat}
    (nonzero : number ≠ 0)
    (small : number < 2 ^ 53)
    (positive : 0 < number * 2 ^ (52 - number.log2)) :
    UnpackedFloat.ofUInt64 Format.binary64 number.toUInt64 =
      .finite .positive (number * 2 ^ (52 - number.log2)) (number.log2 - 52) positive := by
  have bits : number.log2 < 53 := (Nat.log2_lt nonzero).mpr small
  have word : number.toUInt64.toNat = number := Nat.mod_eq_of_lt (by omega)
  have above : compare (number : Int) 0 = .gt := compare_gt_iff_gt.mpr (by omega)
  have target : Format.binary64.targetExponent (totalExponent number 0) = number.log2 - 52 := by
    change max ((number.log2 : Int) + 1 + 0 - 53) (-1074) = _
    omega
  have decreased :
      decreaseExponent number 0 (number.log2 - 52) =
        (number * 2 ^ (52 - number.log2), (number.log2 : Int) - 52) := by
    have amount : ((0 : Int) - (number.log2 - 52)).toNat = 52 - number.log2 := by omega
    rw [decreaseExponent, amount, Nat.shiftLeft_eq, Prod.mk.injEq]
    exact ⟨rfl, by omega⟩
  have kept := (normal_of_lt nonzero small).1.roundWithAccuracy_scaled .positive 0 positive
  rw [Nat.pow_zero, Nat.mul_one, Int.natCast_zero, Int.sub_zero] at kept
  rw [UnpackedFloat.ofUInt64, UnpackedFloat.ofNat, UnpackedFloat.ofInt, word,
    UnpackedFloat.normalize, above]
  change UnpackedFloat.round Format.binary64 .positive number 0 = _
  rw [UnpackedFloat.round, target, decreased]
  exact kept

/-- A whole number is multiplied by one, and the product is rounded. -/
theorem ofScientific_eq
    {number : Nat}
    (nonzero : number ≠ 0) :
    UnpackedFloat.ofScientific Format.binary64 number 0 =
      roundWithAccuracy Format.binary64 .positive (number * 2 ^ 53) (-53) .exact := by
  have notHuge : ¬ (0 : Int) > 2 ^ Format.binary64.exponentBits := by decide
  have notTiny : ¬ (0 : Int) < -((2 ^ Format.binary64.exponentBits : Int) + number.log2) := by
    change ¬ (0 : Int) < -(2 ^ 11 + number.log2)
    omega
  rw [UnpackedFloat.ofScientific, dif_neg nonzero, if_neg notHuge, if_neg notTiny,
    if_pos (Int.le_refl 0), UnpackedFloat.mul, Nat.shiftLeft_eq]
  change roundWithAccuracy Format.binary64 .positive (number * 2 ^ 53 * 1) (-53) .exact = _
  rw [Nat.mul_one]

/-- A whole number of at most 53 digits is kept. -/
theorem ofNat_of_lt
    {number : Nat}
    (nonzero : number ≠ 0)
    (small : number < 2 ^ 53)
    (positive : 0 < number * 2 ^ (52 - number.log2)) :
    Float.ofNat number =
      .ofModel (.pack (.finite .positive (number * 2 ^ (52 - number.log2)) (number.log2 - 52)
        positive)) := by
  have normal := (normal_of_lt nonzero small).1
  have fast : number < 2 ^ 53 ∧ 0 ≤ 22 := ⟨small, Nat.zero_le 22⟩
  have one :
      UnpackedFloat.unpack Format.binary64
          (Float.ofBits 0x3FF0000000000000).toModel.toBits.toBitVec =
        .finite .positive (2 ^ 52) (-52) (by decide) := rfl
  change Float.ofScientific number false 0 = _
  rw [Float.ofScientific, dif_pos fast]
  -- The word of the number is multiplied by the word of one.
  change Float.ofModel (.pack (UnpackedFloat.mul _
    (UnpackedFloat.unpack Format.binary64
      (UnpackedFloat.pack Format.binary64
        (UnpackedFloat.ofUInt64 Format.binary64 number.toUInt64)))
    (UnpackedFloat.unpack Format.binary64
      (Float.ofBits 0x3FF0000000000000).toModel.toBits.toBitVec))) = _
  rw [ofUInt64_eq nonzero small positive, normal.unpack_pack, one, UnpackedFloat.mul]
  exact congrArg (fun product => Float.ofModel (.pack product))
    (normal.roundWithAccuracy_scaled .positive 52 positive)

/-- A whole number of more digits is rounded. -/
theorem ofNat_of_le
    {number : Nat}
    (large : 2 ^ 53 ≤ number) :
    Float.ofNat number =
      .ofModel (.pack (roundWithAccuracy Format.binary64 .positive (number * 2 ^ 53) (-53)
        .exact)) := by
  change Float.ofScientific number false 0 = _
  rw [Float.ofScientific, dif_neg (fun fast => large.not_gt fast.1), ← ofScientific_eq (by omega)]
  rfl

/-- A whole number becomes a normal number with the magnitude that is nearest to it. -/
theorem ofNat_normal
    {number : Nat}
    (nonzero : number ≠ 0)
    (fits : number < 2 ^ 64) :
    ∃ mantissa exponent positive,
      Normal mantissa exponent ∧
      (exponent + 1074) * 2 ^ 52 + mantissa = wholeMagnitude number ∧
      Float.ofNat number = .ofModel (.pack (.finite .positive mantissa exponent positive)) := by
  rcases Nat.lt_or_ge number (2 ^ 53) with small | large
  · have positive : 0 < number * 2 ^ (52 - number.log2) :=
      Nat.mul_pos (Nat.pos_of_ne_zero nonzero) (Nat.two_pow_pos _)
    obtain ⟨normal, isMagnitude⟩ := normal_of_lt nonzero small
    exact ⟨_, _, positive, normal, isMagnitude, ofNat_of_lt nonzero small positive⟩
  · have digits : (number * 2 ^ 53).log2 = number.log2 + 53 := log2_mul_two_pow 53 nonzero
    have bits : number.log2 < 64 := (Nat.log2_lt nonzero).mpr fits
    have shift : number.log2 + 53 - 52 = number.log2 + 1 := by omega
    have least : 2 ^ 52 ≤ number * 2 ^ 53 := by omega
    have sum : (-53 : Int) + ((number * 2 ^ 53).log2 - 52 : Nat) = number.log2 - 52 := by
      rw [digits, shift]
      omega
    obtain ⟨mantissa, exponent, positive, normal, isRounded, isMagnitude⟩ :=
      roundWithAccuracy_normal .positive least (by rw [sum]; omega) (by rw [sum]; omega)
    rw [sum, digits, shift] at isMagnitude
    refine ⟨mantissa, exponent, positive, normal, ?_, isRounded ▸ ofNat_of_le large⟩
    rw [isMagnitude, wholeMagnitude, if_neg nonzero]
    omega

/-- An integer becomes a normal number with its sign. -/
theorem ofInt_normal
    {number : Int}
    (nonzero : number ≠ 0)
    (fits : number.natAbs < 2 ^ 64) :
    ∃ mantissa exponent positive,
      Normal mantissa exponent ∧
      (exponent + 1074) * 2 ^ 52 + mantissa = wholeMagnitude number.natAbs ∧
      Float.ofInt number =
        .ofModel (.pack (.finite (if number < 0 then .negative else .positive) mantissa exponent
          positive)) := by
  obtain ⟨mantissa, exponent, positive, normal, isMagnitude, isNumber⟩ :=
    ofNat_normal (Int.natAbs_ne_zero.mpr nonzero) fits
  refine ⟨mantissa, exponent, positive, normal, isMagnitude, ?_⟩
  cases number with
  | ofNat whole => exact isNumber
  | negSucc whole =>
      change Float.neg (Float.ofNat (whole + 1)) = _
      rw [Int.natAbs_negSucc] at isNumber
      rw [isNumber, if_pos (Int.negSucc_lt_zero whole)]
      change Float.ofModel (.pack (UnpackedFloat.neg (UnpackedFloat.unpack Format.binary64
        (UnpackedFloat.pack Format.binary64 _)))) = _
      rw [normal.unpack_pack]
      rfl

/-- The word of an integer has its sign and the nearest magnitude. -/
theorem ofInt_word
    {number : Int}
    (fits : number.natAbs < 2 ^ 64) :
    (ofInt number).bits.toNat =
      (if number < 0 then 2 ^ 63 else 0) + wholeMagnitude number.natAbs ∧
    wholeMagnitude number.natAbs < infiniteMagnitude := by
  by_cases zero : number = 0
  · subst zero
    decide
  · obtain ⟨mantissa, exponent, positive, normal, isMagnitude, isNumber⟩ := ofInt_normal zero fits
    have word := normal.toNat_pack (if number < 0 then .negative else .positive) positive
    have lower := normal.exponent_ge
    have upper := normal.exponent_le
    have least := normal.mantissa_ge
    have most := normal.mantissa_lt
    refine ⟨?_, ?_⟩
    · rw [ofInt, isNumber]
      refine word.trans ?_
      split
      · change 1 * 2 ^ 63 + _ + _ = _
        omega
      · change 0 * 2 ^ 63 + _ + _ = _
        omega
    · rw [infiniteMagnitude]
      omega

theorem ofInt_isNaN
    {number : Int}
    (fits : number.natAbs < 2 ^ 64) :
    (ofInt number).isNaN = false := by
  obtain ⟨word, finite⟩ := ofInt_word fits
  rw [infiniteMagnitude] at finite
  rw [isNaN, decide_eq_false_iff_not, magnitude_eq, word, infiniteMagnitude]
  split <;> omega

theorem place_ofInt
    {number : Int}
    (fits : number.natAbs < 2 ^ 64) :
    (ofInt number).place =
      if number < 0 then -(wholeMagnitude number.natAbs : Int)
      else wholeMagnitude number.natAbs := by
  obtain ⟨word, finite⟩ := ofInt_word fits
  rw [infiniteMagnitude] at finite
  rw [place, magnitude_eq, word]
  by_cases negative : number < 0
  · rw [if_pos negative] at word ⊢
    rw [if_pos (isNegative_iff.mpr (by omega)), if_pos negative]
    omega
  · rw [if_neg negative] at word ⊢
    rw [if_neg (fun isNegative => by have := isNegative_iff.mp isNegative; omega), if_neg negative]
    omega

/-! ## The order of rounded integers -/

/-- Magnitudes of numbers with the same leading digit stand together. -/
theorem wholeMagnitude_bounds
    {number : Nat}
    (nonzero : number ≠ 0) :
    (number.log2 + 1023) * 2 ^ 52 ≤ wholeMagnitude number ∧
      wholeMagnitude number ≤ (number.log2 + 1024) * 2 ^ 52 := by
  have digits : (number * 2 ^ 53).log2 = number.log2 + 53 := log2_mul_two_pow 53 nonzero
  have shift : number.log2 + 53 - 52 = number.log2 + 1 := by omega
  have large : 52 ≤ (number * 2 ^ 53).log2 := by omega
  obtain ⟨first, last⟩ := nearest_bounds large
  rw [digits, shift] at first last
  rw [wholeMagnitude, if_neg nonzero]
  constructor
  · rw [Nat.add_mul (number.log2 + 1022) 1]
    exact Nat.add_le_add_left first _
  · rw [Nat.add_mul (number.log2 + 1022) 2]
    exact Nat.add_le_add_left last _

theorem wholeMagnitude_mono
    {number larger : Nat}
    (below : number ≤ larger) :
    wholeMagnitude number ≤ wholeMagnitude larger := by
  by_cases zero : number = 0
  · rw [wholeMagnitude, if_pos zero]
    exact Nat.zero_le _
  · have nonzero : larger ≠ 0 := by omega
    have upper := (wholeMagnitude_bounds zero).2
    have lower := (wholeMagnitude_bounds nonzero).1
    have digits : number.log2 ≤ larger.log2 :=
      (Nat.le_log2 nonzero).mpr ((Nat.log2_self_le zero).trans below)
    rcases Nat.lt_or_eq_of_le digits with less | same
    · omega
    · rw [wholeMagnitude, wholeMagnitude, if_neg zero, if_neg nonzero, same]
      exact Nat.add_le_add_left (nearest_mono _ (Nat.mul_le_mul_right _ below)) _

/-- Whole numbers of at most 53 digits, and the next one, keep their order. -/
theorem wholeMagnitude_strictMono
    {number larger : Nat}
    (below : number < larger)
    (small : larger ≤ 2 ^ 53) :
    wholeMagnitude number < wholeMagnitude larger := by
  have nonzero : larger ≠ 0 := by omega
  have lower := (wholeMagnitude_bounds nonzero).1
  by_cases zero : number = 0
  · rw [wholeMagnitude, if_pos zero]
    omega
  · have digits : number.log2 ≤ larger.log2 :=
      (Nat.le_log2 nonzero).mpr ((Nat.log2_self_le zero).trans below.le)
    obtain ⟨normal, isMagnitude⟩ := normal_of_lt zero (by omega)
    have bound := normal.mantissa_lt
    rcases Nat.lt_or_eq_of_le digits with less | same
    · omega
    · have bits : number.log2 < 53 := (Nat.log2_lt zero).mpr (by omega)
      have larger_lt : larger < 2 ^ 53 := (Nat.log2_lt nonzero).mp (by omega)
      have isMagnitudeLarger := (normal_of_lt nonzero larger_lt).2
      have mantissas : number * 2 ^ (52 - number.log2) < larger * 2 ^ (52 - larger.log2) := by
        rw [same]
        exact Nat.mul_lt_mul_of_pos_right below (Nat.two_pow_pos _)
      omega

/-- No integer passes another one when both are rounded. -/
theorem place_ofInt_mono
    {number larger : Int}
    (below : number ≤ larger)
    (fits : number.natAbs < 2 ^ 64)
    (fitsLarger : larger.natAbs < 2 ^ 64) :
    (ofInt number).place ≤ (ofInt larger).place := by
  rw [place_ofInt fits, place_ofInt fitsLarger]
  by_cases negative : larger < 0
  · have ordered : larger.natAbs ≤ number.natAbs := by omega
    have magnitudes := wholeMagnitude_mono ordered
    rw [if_pos negative, if_pos (by omega)]
    omega
  · rw [if_neg negative]
    split
    · omega
    · have ordered : number.natAbs ≤ larger.natAbs := by omega
      have magnitudes := wholeMagnitude_mono ordered
      omega

/-- Integers of at most 53 digits are kept apart. -/
theorem place_ofInt_strictMono
    {number larger : Int}
    (below : number < larger)
    (small : number.natAbs ≤ 2 ^ 53)
    (smallLarger : larger.natAbs ≤ 2 ^ 53) :
    (ofInt number).place < (ofInt larger).place := by
  rw [place_ofInt (by omega), place_ofInt (by omega)]
  by_cases negative : larger < 0
  · have ordered : larger.natAbs < number.natAbs := by omega
    have magnitudes := wholeMagnitude_strictMono ordered small
    rw [if_pos negative, if_pos (by omega)]
    omega
  · rw [if_neg negative]
    split
    · have nonzero : 0 < number.natAbs := by omega
      have magnitudes := wholeMagnitude_strictMono nonzero small
      omega
    · have ordered : number.natAbs < larger.natAbs := by omega
      have magnitudes := wholeMagnitude_strictMono ordered smallLarger
      omega

/-- One more digit is too many. -/
example : (ofInt (2 ^ 53 + 1)).place = (ofInt (2 ^ 53)).place := by decide

theorem eq_of_place_ofInt
    {number other : Int}
    (same : (ofInt number).place = (ofInt other).place)
    (small : number.natAbs ≤ 2 ^ 53)
    (smallOther : other.natAbs ≤ 2 ^ 53) :
    number = other := by
  rcases Int.lt_trichotomy number other with below | same | above
  · exact absurd same (place_ofInt_strictMono below small smallOther).ne
  · exact same
  · exact absurd same (place_ofInt_strictMono above smallOther small).ne'

end Binary64

end EventQuery
