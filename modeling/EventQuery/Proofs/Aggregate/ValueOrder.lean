import EventQuery.Proofs.Aggregate.Recount
import EventQuery.Proofs.Number.Binary64

namespace EventQuery

/-!
# Laws of the order of values

The values that a least or greatest value is chosen from are ordered pair by pair: two
floating-point numbers by their words, numbers of both kinds by where they stand on the line, values
of one other kind as they compare, and all others by the words for their kinds.  Each of these
orders is lawful, but together they are not.  The laws hold for the values of a kind exactly when
four clashes between the orders are absent from it.
-/

/-! ## Words in their total order -/

namespace Binary64

variable {x y : Binary64}

theorem isNegative_iff_totalPlace : x.isNegative = true ↔ x.totalPlace < 0 := by
  rw [totalPlace]
  cases x.isNegative with
  | false => simp
  | true =>
      simp only [↓reduceIte, true_iff]
      omega

/-- On the line the negative words move up by one, so that both zeros meet. -/
theorem place_eq_totalPlace (x : Binary64) :
    x.place = if x.totalPlace < 0 then x.totalPlace + 1 else x.totalPlace := by
  rw [place, totalPlace]
  cases x.isNegative <;> simp only [Bool.false_eq_true, ↓reduceIte] <;> split <;> omega

theorem place_mono
    (below : x.totalPlace ≤ y.totalPlace) :
    x.place ≤ y.place := by
  rw [place_eq_totalPlace, place_eq_totalPlace]
  split <;> split <;> omega

/-- The words that are no numbers stand outside the infinities. -/
theorem isNaN_iff_totalPlace :
    x.isNaN = true ↔
      (infiniteMagnitude : Int) < x.totalPlace ∨ x.totalPlace < -(infiniteMagnitude : Int) - 1 := by
  rw [isNaN, decide_eq_true_iff, totalPlace]
  cases x.isNegative <;> simp only [Bool.false_eq_true, ↓reduceIte] <;> omega

/-- A NaN stands behind all numbers when it has no sign, and else before all of them. -/
theorem totalPlace_le_nan_iff
    (number : x.isNaN = false)
    (nan : y.isNaN = true) :
    x.totalPlace ≤ y.totalPlace ↔ y.isNegative = false := by
  rw [Bool.eq_false_iff, ne_eq, isNaN_iff_totalPlace] at number
  rw [isNaN_iff_totalPlace] at nan
  rw [Bool.eq_false_iff, ne_eq, isNegative_iff_totalPlace]
  omega

theorem totalPlace_inj : x.totalPlace = y.totalPlace ↔ x = y := by
  constructor
  · intro same
    have sameSign : x.isNegative = y.isNegative := by
      rw [Bool.eq_iff_iff, isNegative_iff_totalPlace, isNegative_iff_totalPlace, same]
    refine eq_of_sign_of_magnitude sameSign ?_
    rw [totalPlace, totalPlace, sameSign] at same
    split at same <;> omega
  · rintro rfl
    rfl

theorem totalCompare_swap (x y : Binary64) : y.totalCompare x = (x.totalCompare y).swap :=
  Std.OrientedOrd.eq_swap

theorem compare?_swap (x y : Binary64) : y.compare? x = (x.compare? y).map Ordering.swap := by
  rw [compare?, compare?, Bool.or_comm]
  split
  · rfl
  · exact congrArg some Std.OrientedOrd.eq_swap

/-- Only the integer zero is rounded to a zero. -/
theorem eq_zero_of_place_ofInt
    {number : Int}
    (fits : number.natAbs < 2 ^ 64)
    (isZero : (ofInt number).place = 0) :
    number = 0 := by
  by_contra nonzero
  have bounds := (wholeMagnitude_bounds (Int.natAbs_ne_zero.mpr nonzero)).1
  rw [place_ofInt fits] at isZero
  have large : 0 < wholeMagnitude number.natAbs :=
    Nat.lt_of_lt_of_le (Nat.mul_pos (Nat.succ_pos _) (Nat.two_pow_pos 52)) bounds
  split at isZero <;> omega

theorem below_iff :
    x.below y = true ↔ x.isNaN = false ∧ y.isNaN = false ∧ x.place < y.place := by
  rw [below, compare?]
  cases x.isNaN <;> cases y.isNaN <;> simp [compare_lt_iff_lt]

end Binary64

namespace Value

/-- Values that stand for the same: a value and itself, and values that are equal. -/
def Same (left right : Value) : Prop := left = right ∨ left.valuesEqual right = true

def isNumber : Value → Bool
  | int _ | float _ => true
  | _ => false

/-- Whether a value has parts; such values do not compare. -/
def isStructured : Value → Bool
  | array _ | map _ | event _ | object _ => true
  | _ => false

/-- The place of the word for a kind among all of them; the words for numbers stand together. -/
def rank : Value → Nat
  | array _ => 0
  | bool _ => 1
  | duration _ => 2
  | event _ => 3
  | float _ | int _ => 4
  | map _ => 5
  | null => 6
  | object _ => 7
  | str _ => 8
  | timestamp _ => 9

/-- The text by which a value stands among those of its kind. -/
def wording : Value → String
  | str text => text
  | _ => ""

/-- The whole number by which a value stands among those of its kind. -/
def amount : Value → Int
  | bool truth => truth.toNat
  | timestamp nanos => nanos.toInt
  | duration nanos => nanos.toNat
  | _ => 0

/-- The order by kind, and for values of one kind by text and amount. -/
def byRank : Value → Value → Ordering :=
  compareLex (compareOn rank) (compareLex (compareOn wording) (compareOn amount))

instance : Std.TransCmp byRank := inferInstanceAs (Std.TransCmp (compareLex _ _))

theorem isNumber_iff
    {value : Value} :
    value.isNumber = true ↔ (∃ whole, value = .int whole) ∨ ∃ x, value = .float x := by
  cases value <;> simp [isNumber]

theorem isNumber_iff_rank
    {value : Value} :
    value.isNumber = true ↔ value.rank = 4 := by
  cases value <;> simp [isNumber, rank]

theorem byRank_eq_iff
    {left right : Value} :
    byRank left right = .eq ↔
      left.rank = right.rank ∧ left.wording = right.wording ∧ left.amount = right.amount := by
  simp only [byRank, compareLex, compareOn, Ordering.then_eq_eq, compare_eq_iff_eq]

theorem byRank_of_numbers
    {left right : Value}
    (leftNumber : left.isNumber = true)
    (rightNumber : right.isNumber = true) :
    byRank left right = .eq := by
  obtain ⟨_, rfl⟩ | ⟨_, rfl⟩ := isNumber_iff.mp leftNumber <;>
    obtain ⟨_, rfl⟩ | ⟨_, rfl⟩ := isNumber_iff.mp rightNumber <;> rfl

end Value

namespace ExtremeSet

open Value

/-! ## Values of different kinds -/

section Ranks

variable {left right : Value}

/-- The words for the kinds stand in the order of their ranks. -/
private theorem compare_kindName
    (different : left.rank ≠ right.rank) :
    compare left.kindName right.kindName = compare left.rank right.rank := by
  cases left <;> cases right <;>
    first
    | exact absurd rfl different
    | simp only [kindName, rank]; rfl

theorem order_of_rank_ne
    (different : left.rank ≠ right.rank) :
    order left right = compare left.rank right.rank := by
  rw [← compare_kindName different]
  cases left <;> cases right <;> first | rfl | exact absurd rfl different

private theorem byRank_of_rank_ne
    (different : left.rank ≠ right.rank) :
    byRank left right = compare left.rank right.rank := by
  have apart : compare left.rank right.rank ≠ .eq := fun same =>
    different (compare_eq_iff_eq.mp same)
  rw [byRank, compareLex, compareOn]
  generalize compare left.rank right.rank = ranks at apart ⊢
  cases ranks <;> first | rfl | exact absurd rfl apart

private theorem compare_natCast (first second : Nat) :
    compare (first : Int) (second : Int) = compare first second := by
  rcases Nat.lt_trichotomy first second with before | rfl | after
  · rw [compare_lt_iff_lt.mpr before, compare_lt_iff_lt.mpr (Int.ofNat_lt.mpr before)]
  · rw [Std.ReflOrd.compare_self, Std.ReflOrd.compare_self]
  · rw [compare_gt_iff_gt.mpr after, compare_gt_iff_gt.mpr (Int.ofNat_lt.mpr after)]

/-- Apart from pairs of numbers the order is the one by kind, text and amount. -/
theorem order_eq_byRank
    (notNumbers : (left.isNumber && right.isNumber) = false) :
    order left right = byRank left right := by
  by_cases same : left.rank = right.rank
  · cases left with
    | int _ | float _ =>
        cases right with
        | int _ | float _ => cases notNumbers
        | _ => cases same
    | bool left =>
        cases right with
        | bool right => cases left <;> cases right <;> rfl
        | _ => cases same
    | str left =>
        cases right with
        | str right => exact Ordering.then_eq.symm
        | _ => cases same
    | timestamp left =>
        cases right with
        | timestamp right => rfl
        | _ => cases same
    | duration left =>
        cases right with
        | duration right => exact (compare_natCast _ _).symm
        | _ => cases same
    | _ => cases right <;> first | exact Std.ReflOrd.compare_self | cases same
  · rw [order_of_rank_ne same, byRank_of_rank_ne same]

/-- Values in order are in order by kind. -/
theorem byRank_of_order
    (inOrder : (order left right).isLE) :
    (byRank left right).isLE := by
  cases numbers : left.isNumber && right.isNumber with
  | false => exact order_eq_byRank numbers ▸ inOrder
  | true =>
      obtain ⟨leftNumber, rightNumber⟩ := Bool.and_eq_true_iff.mp numbers
      rw [byRank_of_numbers leftNumber rightNumber]
      rfl

end Ranks

/-! ## Numbers -/

section Numbers

variable {whole other : Int64} {x y : Binary64}

theorem order_int_float (whole : Int64) (x : Binary64) :
    order (.int whole) (.float x) =
      if x.isNaN then .gt else compare (Binary64.ofInt whole.toInt).place x.place := by
  have isNumber := Binary64.ofInt_isNaN (Word.natAbs_toInt_lt whole)
  change (Binary64.compare? _ x).getD (compare "int" "float") = _
  rw [Binary64.compare?, isNumber, Bool.false_or]
  cases x.isNaN <;> rfl

/-- Each of two values stands on the other side of the other one. -/
theorem order_swap (left right : Value) :
    order right left = (order left right).swap := by
  cases numbers : left.isNumber && right.isNumber with
  | false =>
      rw [order_eq_byRank numbers, order_eq_byRank ((Bool.and_comm ..).trans numbers)]
      exact Std.OrientedCmp.eq_swap
  | true =>
      cases left with
      | int whole =>
          cases right with
          | int other => exact Std.OrientedOrd.eq_swap
          | float x =>
              change (x.compare? (Binary64.ofInt whole.toInt)).getD (compare "float" "int") =
                (((Binary64.ofInt whole.toInt).compare? x).getD (compare "int" "float")).swap
              rw [Binary64.compare?_swap]
              cases (Binary64.ofInt whole.toInt).compare? x <;> rfl
          | _ => cases numbers
      | float x =>
          cases right with
          | int whole =>
              change ((Binary64.ofInt whole.toInt).compare? x).getD (compare "int" "float") =
                ((x.compare? (Binary64.ofInt whole.toInt)).getD (compare "float" "int")).swap
              rw [Binary64.compare?_swap]
              cases x.compare? (Binary64.ofInt whole.toInt) <;> rfl
          | float y => exact Binary64.totalCompare_swap x y
          | _ => cases numbers
      | _ => cases numbers

theorem int_le_int_iff :
    (order (.int whole) (.int other)).isLE ↔ whole.toInt ≤ other.toInt :=
  Std.isLE_compare

theorem float_le_float_iff :
    (order (.float x) (.float y)).isLE ↔ x.totalPlace ≤ y.totalPlace :=
  Std.isLE_compare

theorem int_le_float_iff :
    (order (.int whole) (.float x)).isLE ↔
      x.isNaN = false ∧ (Binary64.ofInt whole.toInt).place ≤ x.place := by
  rw [order_int_float]
  cases x.isNaN <;> simp [Std.isLE_compare]

theorem float_le_int_iff :
    (order (.float x) (.int whole)).isLE ↔
      x.isNaN = true ∨ x.place ≤ (Binary64.ofInt whole.toInt).place := by
  rw [order_swap, order_int_float, Ordering.isLE_swap]
  cases x.isNaN <;> simp [Std.isGE_compare]

end Numbers

/-! ## The laws -/

/-- The order of the values of a kind is total, and values at one place stand for the same. -/
structure Lawful (kind : Value → Prop) : Prop extends Orderly kind where
  same : ∀ {left right}, kind left → kind right → order left right = .eq → left.Same right

/-- The orders of numbers, words and kinds do not clash on the values of a kind. -/
structure Clashless (kind : Value → Prop) : Prop where
  /-- Values with parts that are of one kind stand for the same. -/
  parts : ∀ {left right}, kind left → kind right → left.isStructured = true →
    left.kindName = right.kindName → left.Same right
  /-- The integer zero does not meet both zeros with a sign. -/
  zeros : kind (.int 0) → kind (.float .zero) → ¬kind (.float .negativeZero)
  /-- Different integers do not meet a floating-point number that both are rounded to. -/
  rounding : ∀ {whole other x}, kind (.int whole) → kind (.int other) → kind (.float x) →
    (Binary64.ofInt whole.toInt).equals x = true → (Binary64.ofInt other.toInt).equals x = true →
    whole = other
  /-- Where an integer meets a NaN without a sign, all numbers with a point are below the integer. -/
  nan : ∀ {whole x y}, kind (.int whole) → kind (.float x) → kind (.float y) →
    y.isNaN = true → y.isNegative = false → x.isNaN = false →
    x.below (Binary64.ofInt whole.toInt) = true

section Laws

variable {kind : Value → Prop} {left right first second third : Value}

theorem order_of_parts
    (structured : left.isStructured = true)
    (sameKind : left.kindName = right.kindName) :
    order left right = .eq := by
  have byName : order left right = compare left.kindName right.kindName := by
    cases left with
    | array _ | map _ | event _ | object _ => cases right <;> rfl
    | _ => cases structured
  rw [byName, sameKind]
  exact Std.ReflOrd.compare_self

private theorem rounded_mono
    {whole other : Int64}
    (below : whole.toInt ≤ other.toInt) :
    (Binary64.ofInt whole.toInt).place ≤ (Binary64.ofInt other.toInt).place :=
  Binary64.place_ofInt_mono below (Word.natAbs_toInt_lt whole) (Word.natAbs_toInt_lt other)

private theorem place_wholeZero : (Binary64.ofInt (0 : Int64).toInt).place = 0 :=
  Binary64.place_ofInt (Word.natAbs_toInt_lt 0)

/-- Where the laws hold there is no clash. -/
theorem Lawful.clashless
    (lawful : Lawful kind) :
    Clashless kind where
  parts isLeft isRight structured sameKind :=
    lawful.same isLeft isRight (order_of_parts structured sameKind)
  zeros := by
    intro isWhole isZero isNegativeZero
    have before : (order (.float .zero) (.int 0)).isLE :=
      float_le_int_iff.mpr (.inr (by rw [place_wholeZero]; decide))
    have after : (order (.int 0) (.float .negativeZero)).isLE :=
      int_le_float_iff.mpr ⟨by decide, by rw [place_wholeZero]; decide⟩
    have turned := float_le_float_iff.mp (lawful.trans isZero isWhole isNegativeZero before after)
    exact absurd turned (by decide)
  rounding := by
    intro whole other x isWhole isOther isFloat equalsWhole equalsOther
    obtain ⟨_, number, sameWhole⟩ := Binary64.equals_iff.mp equalsWhole
    obtain ⟨_, _, sameOther⟩ := Binary64.equals_iff.mp equalsOther
    have upward := int_le_int_iff.mp <| lawful.trans isWhole isFloat isOther
      (int_le_float_iff.mpr ⟨number, sameWhole.le⟩) (float_le_int_iff.mpr (.inr sameOther.ge))
    have downward := int_le_int_iff.mp <| lawful.trans isOther isFloat isWhole
      (int_le_float_iff.mpr ⟨number, sameOther.le⟩) (float_le_int_iff.mpr (.inr sameWhole.ge))
    exact Int64.toInt_inj.mp (Int.le_antisymm upward downward)
  nan := by
    intro whole x y isWhole isNumber isNaN nan positive number
    rw [Binary64.below_iff]
    refine ⟨number, Binary64.ofInt_isNaN (Word.natAbs_toInt_lt whole), ?_⟩
    by_contra notBelow
    have before : (order (.int whole) (.float x)).isLE :=
      int_le_float_iff.mpr ⟨number, Int.not_lt.mp notBelow⟩
    have after : (order (.float x) (.float y)).isLE :=
      float_le_float_iff.mpr ((Binary64.totalPlace_le_nan_iff number nan).mpr positive)
    have beyond := (int_le_float_iff.mp (lawful.trans isWhole isNumber isNaN before after)).1
    rw [nan] at beyond
    cases beyond

/-- A NaN that stands behind a number has no sign, so that integers are above the number. -/
private theorem Clashless.below_of_nan
    {whole : Int64}
    {x y : Binary64}
    (clashless : Clashless kind)
    (isWhole : kind (.int whole))
    (isNumber : kind (.float x))
    (isNaN : kind (.float y))
    (number : x.isNaN = false)
    (nan : y.isNaN = true)
    (behind : x.totalPlace ≤ y.totalPlace) :
    x.place < (Binary64.ofInt whole.toInt).place := by
  have positive := (Binary64.totalPlace_le_nan_iff number nan).mp behind
  exact (Binary64.below_iff.mp (clashless.nan isWhole isNumber isNaN nan positive number)).2.2

/-- An integer between two floating-point numbers does not turn them around. -/
private theorem Clashless.floats_of_int
    {whole : Int64}
    {x y : Binary64}
    (clashless : Clashless kind)
    (isFirst : kind (.float x))
    (isWhole : kind (.int whole))
    (isThird : kind (.float y))
    (before : x.isNaN = true ∨ x.place ≤ (Binary64.ofInt whole.toInt).place)
    (number : y.isNaN = false)
    (after : (Binary64.ofInt whole.toInt).place ≤ y.place) :
    x.totalPlace ≤ y.totalPlace := by
  by_contra turned
  cases nan : x.isNaN with
  | true =>
      have below := clashless.below_of_nan isWhole isThird isFirst number nan (by omega)
      omega
  | false =>
      have between := before.resolve_left (by simp [nan])
      have placeX := x.place_eq_totalPlace
      have placeY := y.place_eq_totalPlace
      -- The places agree while the words do not, so the words are those of the two zeros.
      have wordX : x.totalPlace = Binary64.zero.totalPlace := by
        have : Binary64.zero.totalPlace = 0 := by decide
        split at placeX <;> split at placeY <;> omega
      have wordY : y.totalPlace = Binary64.negativeZero.totalPlace := by
        have : Binary64.negativeZero.totalPlace = -1 := by decide
        split at placeX <;> split at placeY <;> omega
      obtain rfl := Binary64.totalPlace_inj.mp wordX
      obtain rfl := Binary64.totalPlace_inj.mp wordY
      have zeroX : Binary64.zero.place = 0 := by decide
      have zeroY : Binary64.negativeZero.place = 0 := by decide
      have isZero : whole.toInt = (0 : Int64).toInt :=
        Binary64.eq_zero_of_place_ofInt (Word.natAbs_toInt_lt whole) (by omega)
      obtain rfl := Int64.toInt_inj.mp isZero
      exact clashless.zeros isWhole isFirst isThird

/-- Numbers without clashes are in order. -/
private theorem Clashless.trans_numbers
    (clashless : Clashless kind)
    (isFirst : kind first)
    (isSecond : kind second)
    (isThird : kind third)
    (firstNumber : first.isNumber = true)
    (secondNumber : second.isNumber = true)
    (thirdNumber : third.isNumber = true)
    (before : (order first second).isLE)
    (after : (order second third).isLE) :
    (order first third).isLE := by
  obtain ⟨whole, rfl⟩ | ⟨x, rfl⟩ := isNumber_iff.mp firstNumber
  · obtain ⟨other, rfl⟩ | ⟨y, rfl⟩ := isNumber_iff.mp secondNumber
    · rw [int_le_int_iff] at before
      obtain ⟨last, rfl⟩ | ⟨z, rfl⟩ := isNumber_iff.mp thirdNumber
      · rw [int_le_int_iff] at after ⊢
        exact Int.le_trans before after
      · rw [int_le_float_iff] at after ⊢
        exact ⟨after.1, Int.le_trans (rounded_mono before) after.2⟩
    · obtain ⟨number, before⟩ := int_le_float_iff.mp before
      obtain ⟨last, rfl⟩ | ⟨z, rfl⟩ := isNumber_iff.mp thirdNumber
      · have after := (float_le_int_iff.mp after).resolve_left (by simp [number])
        rw [int_le_int_iff]
        by_contra turned
        have between := rounded_mono (Int.le_of_not_le turned)
        have isWhole := Binary64.ofInt_isNaN (Word.natAbs_toInt_lt whole)
        have isLast := Binary64.ofInt_isNaN (Word.natAbs_toInt_lt last)
        refine turned (congrArg Int64.toInt (clashless.rounding isFirst isThird isSecond ?_ ?_)).le
        · exact Binary64.equals_iff.mpr ⟨isWhole, number, by omega⟩
        · exact Binary64.equals_iff.mpr ⟨isLast, number, by omega⟩
      · rw [float_le_float_iff] at after
        rw [int_le_float_iff]
        cases nan : z.isNaN with
        | true =>
            have below := clashless.below_of_nan isFirst isSecond isThird number nan after
            omega
        | false => exact ⟨rfl, Int.le_trans before (Binary64.place_mono after)⟩
  · obtain ⟨other, rfl⟩ | ⟨y, rfl⟩ := isNumber_iff.mp secondNumber
    · rw [float_le_int_iff] at before
      obtain ⟨last, rfl⟩ | ⟨z, rfl⟩ := isNumber_iff.mp thirdNumber
      · rw [int_le_int_iff] at after
        rw [float_le_int_iff]
        exact before.imp_right fun below => Int.le_trans below (rounded_mono after)
      · obtain ⟨number, after⟩ := int_le_float_iff.mp after
        exact float_le_float_iff.mpr
          (clashless.floats_of_int isFirst isSecond isThird before number after)
    · rw [float_le_float_iff] at before
      obtain ⟨last, rfl⟩ | ⟨z, rfl⟩ := isNumber_iff.mp thirdNumber
      · rw [float_le_int_iff] at after ⊢
        cases number : x.isNaN with
        | true => exact .inl rfl
        | false =>
            refine .inr ?_
            cases nan : y.isNaN with
            | true =>
                exact (clashless.below_of_nan isThird isFirst isSecond number nan before).le
            | false =>
                exact Int.le_trans (Binary64.place_mono before)
                  (after.resolve_left (by simp [nan]))
      · rw [float_le_float_iff] at after ⊢
        exact Int.le_trans before after

theorem Clashless.trans
    (clashless : Clashless kind)
    (isFirst : kind first)
    (isSecond : kind second)
    (isThird : kind third)
    (before : (order first second).isLE)
    (after : (order second third).isLE) :
    (order first third).isLE := by
  have inRank : (byRank first third).isLE :=
    Std.TransCmp.isLE_trans (byRank_of_order before) (byRank_of_order after)
  cases numbers : first.isNumber && third.isNumber with
  | false =>
      rw [order_eq_byRank numbers]
      exact inRank
  | true =>
      obtain ⟨firstNumber, thirdNumber⟩ := Bool.and_eq_true_iff.mp numbers
      -- What stands between two numbers is a number.
      have around : byRank third first = .eq := byRank_of_numbers thirdNumber firstNumber
      have together : byRank first second = .eq :=
        Std.OrientedCmp.isLE_antisymm (byRank_of_order before) <| by
          rw [← Std.TransCmp.congr_right around]
          exact byRank_of_order after
      have secondNumber : second.isNumber = true := by
        rw [isNumber_iff_rank, ← (byRank_eq_iff.mp together).1, ← isNumber_iff_rank]
        exact firstNumber
      exact clashless.trans_numbers isFirst isSecond isThird firstNumber secondNumber thirdNumber
        before after

/-- Numbers that stand at one place of the order are equal or the same word. -/
private theorem same_of_numbers
    (leftNumber : left.isNumber = true)
    (rightNumber : right.isNumber = true)
    (equal : order left right = .eq) :
    left.Same right := by
  have upward : (order left right).isLE := by rw [equal]; rfl
  have downward : (order right left).isLE := by rw [order_swap, equal]; rfl
  obtain ⟨whole, rfl⟩ | ⟨x, rfl⟩ := isNumber_iff.mp leftNumber <;>
    obtain ⟨other, rfl⟩ | ⟨y, rfl⟩ := isNumber_iff.mp rightNumber
  · rw [int_le_int_iff] at upward downward
    exact .inl (congrArg Value.int (Int64.toInt_inj.mp (Int.le_antisymm upward downward)))
  · obtain ⟨number, below⟩ := int_le_float_iff.mp upward
    have above := (float_le_int_iff.mp downward).resolve_left (by simp [number])
    have isWhole := Binary64.ofInt_isNaN (Word.natAbs_toInt_lt whole)
    exact .inr (Binary64.equals_iff.mpr ⟨isWhole, number, Int.le_antisymm below above⟩)
  · obtain ⟨number, above⟩ := int_le_float_iff.mp downward
    have below := (float_le_int_iff.mp upward).resolve_left (by simp [number])
    have isOther := Binary64.ofInt_isNaN (Word.natAbs_toInt_lt other)
    exact .inr (Binary64.equals_iff.mpr ⟨number, isOther, Int.le_antisymm below above⟩)
  · rw [float_le_float_iff] at upward downward
    exact .inl (congrArg Value.float (Binary64.totalPlace_inj.mp (Int.le_antisymm upward downward)))

/-- Values that stand at one place of the order stand for the same. -/
theorem Clashless.same
    (clashless : Clashless kind)
    (isLeft : kind left)
    (isRight : kind right)
    (equal : order left right = .eq) :
    left.Same right := by
  cases numbers : left.isNumber && right.isNumber with
  | true =>
      obtain ⟨leftNumber, rightNumber⟩ := Bool.and_eq_true_iff.mp numbers
      exact same_of_numbers leftNumber rightNumber equal
  | false =>
      rw [order_eq_byRank numbers, byRank_eq_iff] at equal
      obtain ⟨sameRank, sameText, sameAmount⟩ := equal
      cases left with
      | null => cases right with
        | null => exact .inl rfl
        | _ => cases sameRank
      | bool left => cases right with
        | bool right => cases left <;> cases right <;> first | exact .inl rfl | cases sameAmount
        | _ => cases sameRank
      | int _ | float _ => cases right with
        | int _ | float _ => cases numbers
        | _ => cases sameRank
      | str left => cases right with
        | str right => exact .inl (congrArg Value.str sameText)
        | _ => cases sameRank
      | timestamp left => cases right with
        | timestamp right => exact .inl (congrArg Value.timestamp (Int64.toInt_inj.mp sameAmount))
        | _ => cases sameRank
      | duration left => cases right with
        | duration right =>
            exact .inl (congrArg Value.duration (UInt64.toNat_inj.mp (Int.ofNat_inj.mp sameAmount)))
        | _ => cases sameRank
      | array _ | map _ | event _ | object _ =>
          cases right <;> first | exact clashless.parts isLeft isRight rfl rfl | cases sameRank

/-- The laws hold where there is no clash. -/
theorem Clashless.lawful
    (clashless : Clashless kind) :
    Lawful kind where
  swap _ _ := order_swap _ _
  trans := clashless.trans
  same := clashless.same

end Laws

/-! ## Where the laws hold -/

/-- A set of values of a lawful kind neither merges nor loses any. -/
structure Faithful (kind : Value → Prop) (set : ExtremeSet) (values : List Value) : Prop where
  /-- Every value left is counted, at its place of the order. -/
  tally_eq : ∀ value, kind value → set.tally value = standing value values
  /-- What is counted together stands for the same. -/
  same : ∀ value, kind value → ∀ held ∈ values, order value held = .eq → value.Same held
  least : values = [] ∧ set.least = .null ∨
    (∃ value ∈ values, order set.least value = .eq) ∧
      ∀ value ∈ values, (order set.least value).isLE
  greatest : values = [] ∧ set.greatest = .null ∨
    (∃ value ∈ values, order set.greatest value = .eq) ∧
      ∀ value ∈ values, (order value set.greatest).isLE

theorem Lawful.faithful
    {kind : Value → Prop}
    {changes : List Change}
    (lawful : Lawful kind)
    (areKind : ∀ change ∈ changes, kind change.value) :
    Faithful kind (changes.foldl change empty) (changes.foldl Change.left []) := by
  have orderly := lawful.toOrderly
  have tallied := (Tallied.empty kind).changes orderly areKind
  exact ⟨fun _ => tallied.tally_eq orderly,
    fun _ isKind held member same => lawful.same isKind (tallied.ofKind held member) same,
    tallied.least_cases orderly, tallied.greatest_cases orderly⟩

theorem Linear.lawful
    {kind : Value → Prop}
    (linear : Linear kind) :
    Lawful kind :=
  ⟨linear.orderly, fun isLeft isRight same => .inl (linear.eq_of_eq isLeft isRight same)⟩

/-- Of the types that a least value is chosen from, those of which one holds integers as well as
floating-point numbers have no lawful order, and all others have. -/
theorem lawful_ofType_iff
    {type returns : ValueType}
    (taken : AggregateKind.min.resultType type = .ok returns) :
    Lawful (AggregateWindow.OfType type) ↔ type ∈ ValueType.linear := by
  refine ⟨fun lawful => ?_, fun isLinear => (linear_includes isLinear).lawful⟩
  by_contra notLinear
  have mixed : type = .float ∨ type = .any ∨ type = .unknown := by
    cases type with
    | float => exact .inl rfl
    | any => exact .inr (.inl rfl)
    | unknown => exact .inr (.inr rfl)
    | int | bool | str | timestamp | duration => exact absurd (by decide) notLinear
    | _ => cases taken
  rcases mixed with rfl | rfl | rfl <;>
    exact lawful.clashless.zeros ⟨trivial, rfl⟩ ⟨trivial, rfl⟩ ⟨trivial, rfl⟩

/-- Of two values each stands on the other side of the other one, and for the values of a kind the
other laws of a total order hold exactly when four clashes are absent: two values with parts that
differ though they are of one kind, the integer zero beside both zeros with a sign, two integers
beside the floating-point number that both are rounded to, and an integer beside a NaN without a
sign and a number that is not below the integer.  Where the laws hold a set is faithful through all
changes, and they hold for the types that a least or greatest value is chosen from unless a type
holds numbers of both kinds. -/
theorem order_is_lawful_iff (kind : Value → Prop) :
    (∀ left right : Value, order right left = (order left right).swap) ∧
    (Lawful kind ↔ Clashless kind) ∧
    (∀ changes : List Change, Lawful kind → (∀ change ∈ changes, kind change.value) →
      Faithful kind (changes.foldl change empty) (changes.foldl Change.left [])) ∧
    ∀ type returns : ValueType, AggregateKind.min.resultType type = .ok returns →
      (Lawful (AggregateWindow.OfType type) ↔ type ∈ ValueType.linear) :=
  ⟨order_swap, ⟨Lawful.clashless, Clashless.lawful⟩, fun _ lawful => lawful.faithful,
    fun _ _ => lawful_ofType_iff⟩

/-- The numbers one, of both kinds, and two. -/
def OneOrTwo (value : Value) : Prop :=
  value = .int 1 ∨ value = .float ⟨0x3FF0000000000000⟩ ∨ value = .int 2

/-- One is put in as an integer and with a point, and then two; the integer one is taken out. -/
def numbersTold : List Change :=
  [.insert (.int 1), .insert (.float ⟨0x3FF0000000000000⟩), .insert (.int 2), .erase (.int 1)]

theorem order_is_lawful_iff_oneOrTwo :
    Clashless OneOrTwo ∧
      Faithful OneOrTwo (numbersTold.foldl change empty) (numbersTold.foldl Change.left []) ∧
      Lawful (AggregateWindow.OfType .str) := by
  have small : ∀ {whole}, OneOrTwo (.int whole) → whole = 1 ∨ whole = 2 := by
    intro whole isOne
    simpa [OneOrTwo] using isOne
  have clashless : Clashless OneOrTwo := by
    refine ⟨?_, ?_, ?_, ?_⟩
    · rintro left right (rfl | rfl | rfl) _ structured <;> cases structured
    · intro isZero
      exact absurd (small isZero) (by decide)
    · intro whole other x isWhole isOther _ sameWhole sameOther
      have same := (Binary64.equals_iff.mp sameWhole).2.2.trans
        (Binary64.equals_iff.mp sameOther).2.2.symm
      rcases small isWhole with rfl | rfl <;> rcases small isOther with rfl | rfl <;>
        exact Int64.toInt_inj.mp (Binary64.eq_of_place_ofInt same (by decide) (by decide))
    · intro whole x y _ _ isNaN nan
      have isOne : y = ⟨0x3FF0000000000000⟩ := by simpa [OneOrTwo] using isNaN
      rw [isOne] at nan
      exact absurd nan (by decide)
  obtain ⟨_, laws, faithful, ofType⟩ := order_is_lawful_iff OneOrTwo
  refine ⟨clashless, faithful numbersTold (laws.mpr clashless) ?_, ?_⟩
  · simp [numbersTold, Change.value, OneOrTwo]
  · exact (ofType .str .str rfl).mpr (by decide)

/-- The integer zero stands at the places of both zeros with a sign, which stand at different
places; and collections stand at one place, so that of two the one taken out is held. -/
theorem not_lawful_of_any_values :
    (order (.float .zero) (.int 0) = .eq ∧ order (.int 0) (.float .negativeZero) = .eq ∧
      order (.float .zero) (.float .negativeZero) = .gt) ∧
    (order (.array [.int 1]) (.array [.int 2]) = .eq ∧
      ¬(Value.array [.int 1]).Same (.array [.int 2]) ∧
      (([.insert (.array [.int 1]), .insert (.array [.int 2]), .erase (.array [.int 1])] :
        List Change).foldl change empty).least = .array [.int 1]) ∧
    ¬Lawful fun value => value.isNull = false := by
  have different : ¬(Value.array [.int 1]).Same (.array [.int 2]) := by
    rintro (same | equal)
    · cases same
    · revert equal
      decide
  refine ⟨⟨?_, ?_, by decide⟩, ⟨order_of_parts rfl rfl, different, ?_⟩, fun lawful => ?_⟩
  · rw [order_swap, order_int_float, place_wholeZero]
    decide
  · rw [order_int_float, place_wholeZero]
    decide
  · rfl
  · exact different (lawful.same rfl rfl (order_of_parts rfl rfl))

end ExtremeSet

end EventQuery
