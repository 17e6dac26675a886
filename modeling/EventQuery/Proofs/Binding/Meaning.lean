import EventQuery.Proofs.Binding.Formulas

namespace EventQuery

/-!
# Bound formulas and their meaning

Every operator on values does what its meaning says of the data that the values stand for: machine
words of the numbers in range, truth values, and null for what is unknown.  By induction over a
well-typed formula its bound expression has the fault or the value that it means.
-/

namespace Datum

/-- A machine word is made of a number exactly when the number is in range. -/
theorem map_value_inRange
    (operator : String)
    (integer : Int) :
    (inRange operator integer).map value =
      match Word.checked integer with
      | some word => .ok (.int word)
      | none => .error (.invalidOperand operator .overflow) := by
  have sameRange : Word.fits integer = true ↔ Fits integer := Word.fits_iff
  by_cases inside : Fits integer
  · rw [inRange, if_pos inside, Word.checked, if_pos (sameRange.mpr inside)]
    rfl
  · rw [inRange, if_neg inside, Word.checked, if_neg (mt sameRange.mp inside)]
    rfl

theorem value_number_toInt
    (word : Int64) :
    (number word.toInt).value = .int word := by
  rw [value, Int64.ofInt_toInt]

/-- A number in range is of the kind of numbers. -/
theorem admits_inRange
    {operator : String}
    {integer : Int}
    {datum : Datum}
    (yields : inRange operator integer = .ok datum) :
    Kind.number.Admits datum := by
  rw [inRange] at yields
  split at yields
  next inside =>
      cases yields
      exact inside
  next => cases yields

end Datum

theorem Kind.admits_null
    (kind : Kind) :
    kind.Admits .null := by
  cases kind <;> exact trivial

namespace Kind.Admits

variable {kind first second : Kind} {datum left right : Datum}

theorem eq_null
    (admits : null.Admits datum) :
    datum = .null := by
  cases datum with
  | null => rfl
  | number | truth => cases admits

/-- A datum where a number is expected is a number in range or unknown. -/
theorem of_isNumber
    (admits : kind.Admits datum)
    (isNumber : kind.isNumber = true) :
    number.Admits datum := by
  cases kind with
  | number => exact admits
  | truth => cases isNumber
  | null => exact admits.eq_null ▸ trivial

/-- A datum where a truth value is expected is a truth value or unknown. -/
theorem of_isTruth
    (admits : kind.Admits datum)
    (isTruth : kind.isTruth = true) :
    truth.Admits datum := by
  cases kind with
  | truth => exact admits
  | number => cases isTruth
  | null => exact admits.eq_null ▸ trivial

theorem null_or_number
    (admits : number.Admits datum) :
    datum = .null ∨ ∃ word : Int64, datum = .number word.toInt := by
  cases datum with
  | null => exact .inl rfl
  | truth => cases admits
  | number integer =>
      exact .inr ⟨Int64.ofInt integer,
        congrArg Datum.number (Int64.toInt_ofInt_of_le admits.1 admits.2).symm⟩

theorem null_or_truth
    (admits : truth.Admits datum) :
    datum = .null ∨ ∃ answer, datum = .truth answer := by
  cases datum with
  | null => exact .inl rfl
  | number => cases admits
  | truth answer => exact .inr ⟨answer, rfl⟩

end Kind.Admits

/-- Sums, differences and products of values are those of the data that they stand for. -/
theorem Arithmetic.apply_value
    {left right : Datum}
    (symbol : Arithmetic)
    (leftAdmits : Kind.number.Admits left)
    (rightAdmits : Kind.number.Admits right) :
    symbol.op.apply left.value right.value = (symbol.apply left right).map Datum.value := by
  rcases leftAdmits.null_or_number with rfl | ⟨leftWord, rfl⟩
  · cases symbol <;> rfl
  rcases rightAdmits.null_or_number with rfl | ⟨rightWord, rfl⟩
  · cases symbol <;> rfl
  rw [Datum.value_number_toInt, Datum.value_number_toInt, Arithmetic.apply, Datum.map_value_inRange]
  cases symbol <;> rfl

/-- The result of an operator on numbers is of the kind of a sum. -/
theorem Arithmetic.admits_apply
    {symbol : Arithmetic}
    {first second : Kind}
    {left right datum : Datum}
    (leftAdmits : first.Admits left)
    (rightAdmits : second.Admits right)
    (yields : symbol.apply left right = .ok datum) :
    (first.sum second).Admits datum := by
  rw [Arithmetic.apply.eq_def] at yields
  split at yields
  next =>
      cases first with
      | number =>
          cases second with
          | number => exact Datum.admits_inRange yields
          | truth | null => cases rightAdmits
      | truth | null => cases leftAdmits
  next =>
      cases yields
      exact Kind.admits_null _

/-- The order that is found between two integers decides whether a comparison holds. -/
theorem Comparison.admits_compare
    {symbol : Comparison}
    (ordered : symbol ≠ .eq ∧ symbol ≠ .notEq)
    (left right : Int) :
    symbol.op.admits (compare left right) = symbol.holds left right := by
  rw [Bool.eq_iff_iff]
  cases symbol with
  | eq => exact absurd rfl ordered.1
  | notEq => exact absurd rfl ordered.2
  | lt => rw [op, BinaryOp.admits, beq_iff_eq, Int.compare_eq_lt, holds, decide_eq_true_iff]
  | gt => rw [op, BinaryOp.admits, beq_iff_eq, Int.compare_eq_gt, holds, decide_eq_true_iff]
  | le =>
      rw [op, BinaryOp.admits, bne_iff_ne, ne_eq, Int.compare_eq_gt, holds, decide_eq_true_iff,
        Int.not_lt]
  | ge =>
      rw [op, BinaryOp.admits, bne_iff_ne, ne_eq, Int.compare_eq_lt, holds, decide_eq_true_iff,
        Int.not_lt]

/-- Comparisons of words are those of the numbers that they stand for. -/
theorem Comparison.apply_word
    (symbol : Comparison)
    (left right : Int64) :
    symbol.op.apply (.int left) (.int right) =
      .ok (.bool (symbol.holds left.toInt right.toInt)) := by
  have same : (left == right) = decide (left.toInt = right.toInt) := by
    simp only [Int64.toInt_inj]
    rfl
  have answered {answer other : Bool} (equal : answer = other) :
      Except.ok (Value.bool answer) = (Except.ok (.bool other) : Except Fault Value) := by
    rw [equal]
  cases symbol with
  | eq => exact answered same
  | notEq => exact answered (by rw [holds, decide_not, ← same]; rfl)
  | lt | le | gt | ge => exact answered (admits_compare (by decide) left.toInt right.toInt)

/-- Comparisons of values are those of the data that they stand for. -/
theorem Comparison.apply_value
    {first second : Kind}
    {left right : Datum}
    (symbol : Comparison)
    (leftAdmits : first.Admits left)
    (rightAdmits : second.Admits right)
    (comparable : first.comparable second = true) :
    symbol.op.apply left.value right.value = .ok (symbol.apply left right).value := by
  have leftUnknown : symbol.op.apply Datum.null.value right.value =
      .ok (symbol.apply .null right).value := by
    rw [Comparison.apply, if_pos (.inl rfl)]
    cases symbol <;> rfl
  have rightUnknown : symbol.op.apply left.value Datum.null.value =
      .ok (symbol.apply left .null).value := by
    rw [Comparison.apply, if_pos (.inr rfl)]
    cases symbol <;> cases left <;> rfl
  cases first with
  | null =>
      cases leftAdmits.eq_null
      exact leftUnknown
  | number =>
      rcases leftAdmits.null_or_number with rfl | ⟨leftWord, rfl⟩
      · exact leftUnknown
      cases second with
      | truth => cases comparable
      | null =>
          cases rightAdmits.eq_null
          exact rightUnknown
      | number =>
          rcases rightAdmits.null_or_number with rfl | ⟨rightWord, rfl⟩
          · exact rightUnknown
          rw [Datum.value_number_toInt, Datum.value_number_toInt, apply_word]
          rfl
  | truth =>
      rcases leftAdmits.null_or_truth with rfl | ⟨leftAnswer, rfl⟩
      · exact leftUnknown
      cases second with
      | number => cases comparable
      | null =>
          cases rightAdmits.eq_null
          exact rightUnknown
      | truth =>
          rcases rightAdmits.null_or_truth with rfl | ⟨rightAnswer, rfl⟩
          · exact rightUnknown
          cases symbol <;> cases leftAnswer <;> cases rightAnswer <;> rfl

/-- A value that conforms to the type of a kind stands for a datum of the kind. -/
theorem Kind.admits_ofValue
    {kind : Kind}
    {value : Value}
    (conforms : kind.type.Includes value) :
    kind.Admits (Datum.ofValue value) ∧ (Datum.ofValue value).value = value := by
  cases kind with
  | number =>
      cases value with
      | null => exact ⟨trivial, rfl⟩
      | int word => exact ⟨⟨word.le_toInt, word.toInt_lt⟩, Datum.value_number_toInt word⟩
      | _ => cases conforms
  | truth =>
      cases value with
      | null => exact ⟨trivial, rfl⟩
      | bool answer => exact ⟨trivial, rfl⟩
      | _ => cases conforms
  | null =>
      cases value with
      | null => exact ⟨trivial, rfl⟩
      | _ => cases conforms

theorem Comparison.admits_apply
    (symbol : Comparison)
    (left right : Datum) :
    Kind.truth.Admits (symbol.apply left right) := by
  rw [Comparison.apply]
  split <;> exact trivial

namespace Datum

/-- Opposite values are those of opposite data. -/
theorem opposite_value
    {datum : Datum}
    (admits : Kind.number.Admits datum) :
    datum.value.opposite = datum.opposite.map value := by
  rcases admits.null_or_number with rfl | ⟨word, rfl⟩
  · rfl
  · rw [value_number_toInt, opposite, map_value_inRange]
    rfl

theorem admits_opposite
    {kind : Kind}
    {datum result : Datum}
    (admits : kind.Admits datum)
    (yields : datum.opposite = .ok result) :
    kind.Admits result := by
  cases datum with
  | number =>
      cases kind with
      | number => exact admits_inRange yields
      | truth | null => cases admits
  | null | truth =>
      cases yields
      exact kind.admits_null

/-- Only a falsehood decides a conjunction alone. -/
theorem decided?_and
    {left : Datum}
    (undecided : left ≠ .truth false) :
    Node.decided? .and left.value = none := by
  match left with
  | .null | .number _ | .truth true => rfl
  | .truth false => exact absurd rfl undecided

/-- Only a truth decides a disjunction alone. -/
theorem decided?_or
    {left : Datum}
    (undecided : left ≠ .truth true) :
    Node.decided? .or left.value = none := by
  match left with
  | .null | .number _ | .truth false => rfl
  | .truth true => exact absurd rfl undecided

theorem admits_conjunction
    (left right : Datum) :
    Kind.truth.Admits (left.conjunction right) := by
  rw [conjunction]
  split
  next => exact trivial
  next => split <;> exact trivial

theorem admits_disjunction
    (left right : Datum) :
    Kind.truth.Admits (left.disjunction right) := by
  rw [disjunction]
  split
  next => exact trivial
  next => split <;> exact trivial

end Datum

/-- An operator that is not logical is not decided by its left operand. -/
theorem Node.decided?_eq_none
    {op : BinaryOp}
    (notLogical : op.isLogical = false)
    (value : Value) :
    decided? op value = none := by
  cases op with
  | and | or => cases notLogical
  | _ => rfl

/-- The conjunction of values is that of the data that they stand for. -/
theorem Datum.conjunction_value
    {left right : Datum}
    (leftAdmits : Kind.truth.Admits left)
    (rightAdmits : Kind.truth.Admits right) :
    BinaryOp.conjunction left.value right.value = (left.conjunction right).value := by
  match left, right with
  | .null, .null | .null, .truth true | .null, .truth false => rfl
  | .truth true, .null | .truth true, .truth true | .truth true, .truth false => rfl
  | .truth false, .null | .truth false, .truth true | .truth false, .truth false => rfl

/-- The disjunction of values is that of the data that they stand for. -/
theorem Datum.disjunction_value
    {left right : Datum}
    (leftAdmits : Kind.truth.Admits left)
    (rightAdmits : Kind.truth.Admits right) :
    BinaryOp.disjunction left.value right.value = (left.disjunction right).value := by
  match left, right with
  | .null, .null | .null, .truth true | .null, .truth false => rfl
  | .truth true, .null | .truth true, .truth true | .truth true, .truth false => rfl
  | .truth false, .null | .truth false, .truth true | .truth false, .truth false => rfl

namespace Kind

/--
Whether an evaluation agrees with a meaning: both have the same fault, or the evaluation has the
value that stands for the meaning, which is a datum of the kind.
-/
def Agrees (kind : Kind) (outcome : Except Fault Value) (meaning : Except Fault Datum) : Prop :=
  (∃ fault, outcome = .error fault ∧ meaning = .error fault) ∨
    ∃ datum, kind.Admits datum ∧ outcome = .ok datum.value ∧ meaning = .ok datum

namespace Agrees

variable {kind : Kind}

theorem ok
    {datum : Datum}
    (admits : kind.Admits datum) :
    kind.Agrees (.ok datum.value) (.ok datum) :=
  .inr ⟨datum, admits, rfl, rfl⟩

/-- A value that conforms to the type of a kind agrees with the datum that it stands for. -/
theorem of_conforming
    {value : Value}
    (conforms : kind.type.Includes value) :
    kind.Agrees (.ok value) (.ok (.ofValue value)) := by
  obtain ⟨admits, stands⟩ := Kind.admits_ofValue conforms
  exact .inr ⟨Datum.ofValue value, admits, congrArg Except.ok stands.symm, rfl⟩

theorem of_truth
    (answer : Bool) :
    truth.Agrees (.ok (.bool answer)) (.ok (.truth answer)) :=
  .inr ⟨.truth answer, trivial, rfl, rfl⟩

/-- What is the image of a meaning agrees with it. -/
theorem of_map
    {outcome : Except Fault Value}
    {meaning : Except Fault Datum}
    (image : outcome = meaning.map Datum.value)
    (admits : ∀ datum, meaning = .ok datum → kind.Admits datum) :
    kind.Agrees outcome meaning := by
  cases meaning with
  | error fault => exact .inl ⟨fault, image, rfl⟩
  | ok datum => exact .inr ⟨datum, admits datum rfl, image, rfl⟩

/-- Evaluations go on agreeing with their meanings when what follows them agrees on every datum. -/
theorem bind
    {result : Kind}
    {outcome : Except Fault Value}
    {meaning : Except Fault Datum}
    {next : Value → Except Fault Value}
    {after : Datum → Except Fault Datum}
    (agrees : kind.Agrees outcome meaning)
    (rest : ∀ datum, kind.Admits datum → result.Agrees (next datum.value) (after datum)) :
    result.Agrees (outcome >>= next) (meaning >>= after) := by
  rcases agrees with ⟨fault, rfl, rfl⟩ | ⟨datum, admits, rfl, rfl⟩
  · exact .inl ⟨fault, rfl, rfl⟩
  · exact rest datum admits

end Agrees

end Kind

namespace Formula

variable {scope : Scope} {stream : Stream} {formula : Formula} {kind : Kind}

/-- On the row of an event a bound formula of any tree of its own agrees with its meaning. -/
theorem HasKind.agrees
    {node : Node}
    {event : Event}
    {row : Row}
    (typed : formula.HasKind scope stream kind)
    (rendered : formula.Renders stream node)
    (atSlot : row.get stream.slot = .event event)
    (suits : scope.Suits stream event)
    (occasion : Occasion) :
    kind.Agrees (node.evaluate row occasion) (formula.meaning event) := by
  induction typed generalizing node occasion with
  | number word =>
      cases rendered
      have conforms : Kind.number.type.Includes (.int word) := trivial
      exact .of_conforming conforms
  | truth answer =>
      cases rendered
      exact .of_truth answer
  | null =>
      cases rendered
      exact .ok (Kind.admits_null _)
  | @property name _ shape property _ _ shaped declared typed _ =>
      cases rendered
      have conforms := typed ▸ suits shape name property shaped declared
      rw [Node.evaluate, Node.readSlot, atSlot]
      exact .of_conforming conforms
  | arithmetic symbol _ _ leftNumber rightNumber leftHypothesis rightHypothesis =>
      cases rendered with
      | arithmetic _ type leftRendered rightRendered =>
          rw [Node.evaluate, meaning]
          refine (leftHypothesis leftRendered _).bind fun left leftAdmits => ?_
          rw [Node.decided?_eq_none (by cases symbol <;> rfl)]
          refine (rightHypothesis rightRendered _).bind fun right rightAdmits => ?_
          have applied := symbol.apply_value (leftAdmits.of_isNumber leftNumber)
            (rightAdmits.of_isNumber rightNumber)
          exact .of_map applied fun _ => Arithmetic.admits_apply leftAdmits rightAdmits
  | comparison symbol _ _ comparable leftHypothesis rightHypothesis =>
      cases rendered with
      | comparison _ type leftRendered rightRendered =>
          rw [Node.evaluate, meaning]
          refine (leftHypothesis leftRendered _).bind fun left leftAdmits => ?_
          rw [Node.decided?_eq_none (by cases symbol <;> rfl)]
          refine (rightHypothesis rightRendered _).bind fun right rightAdmits => ?_
          rw [symbol.apply_value leftAdmits rightAdmits comparable]
          exact .ok (symbol.admits_apply left right)
  | and _ _ leftTruth rightTruth leftHypothesis rightHypothesis =>
      cases rendered with
      | and type leftRendered rightRendered =>
          rw [Node.evaluate, meaning]
          refine (leftHypothesis leftRendered _).bind fun left leftAdmits => ?_
          by_cases decided : left = .truth false
          · rw [if_pos decided, decided]
            exact .of_truth false
          rw [if_neg decided, Datum.decided?_and decided]
          refine (rightHypothesis rightRendered _).bind fun right rightAdmits => ?_
          rw [BinaryOp.apply, Datum.conjunction_value (leftAdmits.of_isTruth leftTruth)
            (rightAdmits.of_isTruth rightTruth)]
          exact .ok (left.admits_conjunction right)
  | or _ _ leftTruth rightTruth leftHypothesis rightHypothesis =>
      cases rendered with
      | or type leftRendered rightRendered =>
          rw [Node.evaluate, meaning]
          refine (leftHypothesis leftRendered _).bind fun left leftAdmits => ?_
          by_cases decided : left = .truth true
          · rw [if_pos decided, decided]
            exact .of_truth true
          rw [if_neg decided, Datum.decided?_or decided]
          refine (rightHypothesis rightRendered _).bind fun right rightAdmits => ?_
          rw [BinaryOp.apply, Datum.disjunction_value (leftAdmits.of_isTruth leftTruth)
            (rightAdmits.of_isTruth rightTruth)]
          exact .ok (left.admits_disjunction right)
  | not _ operandTruth inductionHypothesis =>
      cases rendered with
      | not rendered =>
          rw [Node.evaluate, meaning]
          refine (inductionHypothesis rendered _).bind fun datum admits => ?_
          rcases (admits.of_isTruth operandTruth).null_or_truth with rfl | ⟨answer, rfl⟩
          · exact .ok (Kind.admits_null _)
          · exact .of_truth !answer
  | neg _ operandNumber inductionHypothesis =>
      cases rendered with
      | neg type rendered =>
          rw [Node.evaluate, meaning]
          refine (inductionHypothesis rendered _).bind fun datum admits => ?_
          exact .of_map (Datum.opposite_value (admits.of_isNumber operandNumber))
            fun _ => Datum.admits_opposite admits

/--
A well-typed formula is bound, and on every row with an event of its stream, whose declared
properties have values of their types or none, the bound expression has the fault or the value that
the formula means for the event.  A number that is meant is in the 64-bit range, so that the value
stands for it alone.
-/
theorem evaluate_formula
    (typed : formula.HasKind scope stream kind) :
    ∃ node, scope.bind (formula.expr stream) = .ok node ∧
      ∀ row event occasion, row.get stream.slot = .event event → scope.Suits stream event →
        kind.Agrees (node.evaluate row occasion) (formula.meaning event) := by
  obtain ⟨node, bound, rendered, _⟩ := typed.bind_expr
  exact ⟨node, bound, fun row event occasion atSlot suits =>
    typed.agrees rendered atSlot suits occasion⟩

/-- The one stream of a scope, of orders with a volume that may be open. -/
def orders : Stream := ⟨"o", "Order", 0, false⟩

/-- Orders with a volume that may be open. -/
def orderShape : Shape := ⟨"Order", true, [("volume", ⟨.int, none⟩), ("open", ⟨.bool, none⟩)], []⟩

/-- The scope of the orders. -/
def orderScope : Scope := ⟨Schema.empty.addShape orderShape, [orders], none, []⟩

/-- An open order with a volume. -/
def openOrder : Event := ⟨.given 0, "Order", [("volume", .int 1), ("open", .bool true)]⟩

/-- The order is open, or its volume and the greatest number are positive together. -/
def openOrPositive : Formula :=
  .or (.property "open" true)
    (.comparison .gt (.arithmetic .add (.property "volume" false) (.number Int64.maxValue))
      (.number 0))

theorem hasKind_openOrPositive : openOrPositive.HasKind orderScope orders .truth := by
  have volume : (Formula.property "volume" false).HasKind orderScope orders .number :=
    .property rfl rfl rfl rfl (.of_only rfl (by decide) rfl rfl)
  have isOpen : (Formula.property "open" true).HasKind orderScope orders .truth :=
    .property rfl rfl rfl rfl (.of_only_qualified rfl)
  exact .or isOpen
    (.comparison .gt (.arithmetic .add volume (.number _) rfl rfl) (.number 0) rfl) rfl rfl

theorem suits_openOrder : orderScope.Suits orders openOrder := by
  intro shape name property shaped declared
  cases shaped
  obtain ⟨held, isHeld, member⟩ := Table.mem_of_find? declared
  cases eq_of_beq isHeld
  simp only [orderShape, List.mem_cons, List.not_mem_nil, or_false, Prod.mk.injEq] at member
  rcases member with ⟨rfl, rfl⟩ | ⟨rfl, rfl⟩ <;> exact trivial

/-- The sum leaves the 64-bit range, but it is not looked at for an open order. -/
theorem evaluate_formula_openOrPositive :
    ∃ node, orderScope.bind (openOrPositive.expr orders) = .ok node ∧
      node.evaluate [.event openOrder] [] = .ok (.bool true) := by
  obtain ⟨node, bound, agrees⟩ := evaluate_formula hasKind_openOrPositive
  refine ⟨node, bound, ?_⟩
  rcases agrees [.event openOrder] openOrder [] rfl suits_openOrder with
    ⟨fault, _, isFault⟩ | ⟨datum, _, evaluated, isDatum⟩
  · cases isFault
  · cases isDatum
    exact evaluated

end Formula

end EventQuery
