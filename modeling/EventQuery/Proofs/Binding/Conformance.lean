import EventQuery.Proofs.Binding.Yields
import EventQuery.Proofs.Store.Entries

namespace EventQuery

/-!
# Conformance of values

A value conforms to a type when it may stand where the type is expected at run time.  The operators
and the built-in methods take values that conform to the types of their operands to values that
conform to the type that binding computes for the result.
-/

namespace ValueType

/--
Whether a value conforms to a type.  Null conforms to every type, and every value to a dynamic one.
An integer conforms to the floating-point numbers too, and an event of any name to the type of all
events.  The parts of collections and maps conform to the types of the parts.
-/
def Includes : ValueType → Value → Prop
  | _, .null => True
  | .any, _ => True
  | .unknown, _ => True
  | .int, .int _ => True
  | .float, .int _ => True
  | .float, .float _ => True
  | .bool, .bool _ => True
  | .str, .str _ => True
  | .timestamp, .timestamp _ => True
  | .duration, .duration _ => True
  | .array element, .array items => ∀ item ∈ items, element.Includes item
  | .map key entry, .map entries =>
      ∀ held ∈ entries, key.Includes (.str held.1) ∧ entry.Includes held.2
  | .event name, .event entity => entity.kind = name
  | .anyEvent, .event _ => True
  | .object name, .object entity => entity.kind = name
  | _, _ => False

@[simp] theorem includes_null (type : ValueType) : type.Includes .null := by
  cases type <;> exact trivial

theorem includes_of_isDynamic
    {type : ValueType}
    (dynamic : type.isDynamic = true)
    (value : Value) :
    type.Includes value := by
  cases type with
  | any => cases value <;> exact trivial
  | unknown => cases value <;> exact trivial
  | _ => cases dynamic

/-- A value that may be absent conforms when it does where it is there. -/
theorem includes_ofOption
    {type : ValueType}
    {value? : Option Value}
    (present : ∀ value, value? = some value → type.Includes value) :
    type.Includes (Value.ofOption value?) := by
  cases value? with
  | none => exact includes_null type
  | some value => exact present value rfl

end ValueType

/-- The declared properties of an event have values of their types. -/
def Entity.Obeys (schema : Schema) (entity : Event) : Prop :=
  ∀ shape name property, schema.shape? entity.kind = some shape →
    shape.property? name = some property → property.type.Includes (entity.read name)

namespace Value

/-- The values that a value consists of. -/
def parts : Value → List Value
  | array items => items
  | map entries => entries.map Prod.snd
  | event entity => entity.fields.map Prod.snd
  | _ => []

/-- All events in a value, however deep, have properties of the declared types. -/
inductive Faithful (schema : Schema) : Value → Prop
  | intro {value : Value}
      (parts : ∀ part ∈ value.parts, Faithful schema part)
      (obeys : ∀ entity, value = .event entity → entity.Obeys schema) :
      Faithful schema value

/-- A collection, at any depth, has elements of the type of its first one, or null. -/
inductive Uniform : Value → Prop
  | empty : Uniform (.array [])
  | array {first : Value} {rest : List Value}
      (same : ∀ item ∈ rest, item = .null ∨ item.type = first.type)
      (each : ∀ item ∈ first :: rest, Uniform item) :
      Uniform (.array (first :: rest))
  | other {value : Value}
      (noArray : value.asArray? = none) :
      Uniform value

/-- A uniform value conforms to the type that it has as a literal. -/
theorem Uniform.includes_type
    {value : Value}
    (uniform : value.Uniform) :
    value.type.Includes value := by
  induction uniform with
  | empty => exact fun _ member => nomatch member
  | @array first rest same each inductionHypothesis =>
      intro item member
      rcases List.mem_cons.mp member with rfl | later
      · exact inductionHypothesis item member
      · rcases same item later with rfl | isType
        · exact ValueType.includes_null _
        · rw [← isType]
          exact inductionHypothesis item member
  | @other value noArray =>
      cases value with
      | array items => cases noArray
      | map entries => exact fun held _ => ⟨trivial, ValueType.includes_of_isDynamic rfl _⟩
      | event entity => rfl
      | object entity => rfl
      | _ => exact trivial

namespace Faithful

variable {schema : Schema}

/-- A value without parts that is no event is faithful. -/
theorem of_plain
    {value : Value}
    (noParts : value.parts = [])
    (noEvent : value.asEvent? = none) :
    value.Faithful schema := by
  refine .intro (fun part member => ?_) fun entity isEvent => ?_
  · rw [noParts] at member
    cases member
  · rw [isEvent] at noEvent
    cases noEvent

theorem null : Faithful schema .null := of_plain rfl rfl

theorem part
    {value part : Value}
    (faithful : value.Faithful schema)
    (member : part ∈ value.parts) :
    part.Faithful schema := by
  cases faithful with
  | intro parts _ => exact parts part member

theorem obeys
    {entity : Event}
    (faithful : Faithful schema (.event entity)) :
    entity.Obeys schema := by
  cases faithful with
  | intro _ obeys => exact obeys entity rfl

theorem array
    {items : List Value}
    (each : ∀ item ∈ items, item.Faithful schema) :
    Faithful schema (.array items) :=
  .intro each nofun

theorem ofOption
    {value? : Option Value}
    (present : ∀ value, value? = some value → value.Faithful schema) :
    (Value.ofOption value?).Faithful schema := by
  cases value? with
  | none => exact null
  | some value => exact present value rfl

/-- What stands under a name in a faithful value is faithful. -/
theorem find?
    {value : Value}
    {entries : List (String × Value)}
    (faithful : value.Faithful schema)
    (isParts : value.parts = entries.map Prod.snd)
    (name : String) :
    (Value.ofOption (Table.find? entries name)).Faithful schema := by
  refine ofOption fun found isFound => faithful.part ?_
  obtain ⟨held, _, member⟩ := Table.mem_of_find? isFound
  rw [isParts]
  exact List.mem_map.mpr ⟨_, member, rfl⟩

end Faithful

end Value

section Operators

variable {op : BinaryOp} {context : String} {leftType rightType type : ValueType}
  {left right value : Value}

namespace ValueType

/-- Whatever conforms to the integers is an integer, unless it is null. -/
theorem eq_int_of_includes
    (included : ValueType.int.Includes value)
    (present : value.isNull = false) :
    ∃ number, value = .int number := by
  cases value with
  | int number => exact ⟨number, rfl⟩
  | null => cases present
  | _ => exact included.elim

/-- The sum of two numbers has the type of the integers only when both are integers. -/
theorem eq_int_of_numericJoin?
    (joined : leftType.numericJoin? rightType = some .int) :
    leftType = .int ∧ rightType = .int := by
  rw [numericJoin?.eq_def] at joined
  split at joined
  next => exact ⟨rfl, rfl⟩
  next => cases joined
  next => cases joined
  next => cases joined
  next => split at joined <;> cases joined

/-- The type of a sum is that of integers or floating-point numbers, or unknown. -/
theorem numericJoin?_cases
    (leftType rightType : ValueType) :
    (leftType.numericJoin? rightType).getD .unknown = .int ∨
      (leftType.numericJoin? rightType).getD .unknown = .float ∨
        (leftType.numericJoin? rightType).getD .unknown = .unknown := by
  rw [numericJoin?.eq_def]
  split
  next => exact .inl rfl
  next => exact .inr (.inl rfl)
  next => exact .inr (.inl rfl)
  next => exact .inr (.inl rfl)
  next => split <;> exact .inr (.inr rfl)

end ValueType

namespace BinaryOp

theorem truth_of_conjunction
    (left right : Value) :
    conjunction left right = .null ∨ ∃ truth, conjunction left right = .bool truth := by
  rw [conjunction.eq_def]
  split <;> simp

theorem truth_of_disjunction
    (left right : Value) :
    disjunction left right = .null ∨ ∃ truth, disjunction left right = .bool truth := by
  rw [disjunction.eq_def]
  split <;> simp

/-- Arithmetic results in an integer when both operands are, and else in a floating-point number. -/
theorem arithmetic_cases
    (outcome : op.arithmetic left right = .ok value) :
    (∃ first second result, left = .int first ∧ right = .int second ∧ value = .int result) ∨
      (∀ first second, ¬ (left = .int first ∧ right = .int second)) ∧
        ∃ result, value = .float result := by
  rw [arithmetic.eq_def] at outcome
  split at outcome
  next first second =>
      split at outcome
      next result _ =>
          cases outcome
          exact .inl ⟨first, second, result, rfl, rfl, rfl⟩
      next => cases outcome
  next notBoth =>
      refine .inr ⟨fun first second both => notBoth first second both.1 both.2, ?_⟩
      rcases operands : floatOperands op left right with fault | ⟨first, second⟩
      · simp [operands, bind, Except.bind] at outcome
      · simp only [operands, bind, Except.bind, pure, Except.pure, Except.ok.injEq] at outcome
        exact ⟨_, outcome.symm⟩

theorem comparison_eq_ok
    (outcome : op.comparison left right = .ok value) :
    ∃ truth, value = .bool truth := by
  rw [comparison] at outcome
  split at outcome
  next =>
      cases outcome
      exact ⟨_, rfl⟩
  next => cases outcome

theorem quotient_eq_ok
    (outcome : quotient left right = .ok value) :
    ∃ number, value = .float number := by
  rw [quotient] at outcome
  rcases operands : floatOperands div left right with fault | ⟨first, second⟩
  · simp [operands, bind, Except.bind] at outcome
  · simp only [operands, bind, Except.bind] at outcome
    split at outcome
    next => cases outcome
    next =>
        cases outcome
        exact ⟨_, rfl⟩

/-- What an operator results in: null, or what operators of its kind make. -/
theorem apply_cases
    (outcome : op.apply left right = .ok value) :
    value = .null ∨
      ((op.isLogical || op.isComparison) = true ∧ ∃ truth, value = .bool truth) ∨
      (op = .div ∧ ∃ number, value = .float number) ∨
      (op ∈ [.add, .sub, .mul] ∧ left.isNull = false ∧ right.isNull = false ∧
        op.arithmetic left right = .ok value) := by
  cases op with
  | and =>
      cases outcome
      exact (truth_of_conjunction left right).imp id fun truth => .inl ⟨rfl, truth⟩
  | or =>
      cases outcome
      exact (truth_of_disjunction left right).imp id fun truth => .inl ⟨rfl, truth⟩
  | _ =>
      rw [apply.eq_def] at outcome
      dsimp only at outcome
      split at outcome
      next =>
          cases outcome
          exact .inl rfl
      next present =>
          have present : left.isNull = false ∧ right.isNull = false := by simpa using present
          first
          | exact .inr (.inr (.inr ⟨by simp, present.1, present.2, outcome⟩))
          | exact .inr (.inr (.inl ⟨rfl, quotient_eq_ok outcome⟩))
          | exact .inr (.inl ⟨rfl, comparison_eq_ok outcome⟩)
          | exact .inr (.inl ⟨rfl, _, (Except.ok.inj outcome).symm⟩)

/-- The type of the result is that of what operators of the kind make. -/
theorem resultType_eq_ok
    (typed : op.resultType context leftType rightType = .ok type) :
    ((op.isLogical || op.isComparison) = true → type = .bool) ∧
      (op = .div → type = .float) ∧
      (op ∈ [.add, .sub, .mul] → type = (leftType.numericJoin? rightType).getD .unknown) := by
  cases op with
  | eq | notEq | lt | le | gt | ge =>
      rw [resultType.eq_def] at typed
      dsimp only at typed
      split at typed
      next =>
          cases typed
          exact ⟨fun _ => rfl, nofun, by simp⟩
      next => cases typed
  | _ =>
      obtain ⟨_, _, typed⟩ := bind_eq_ok_iff.mp typed
      cases typed
      simp [isLogical, isComparison]

/-- The result of an operator conforms to the type that is computed for it. -/
theorem includes_apply
    (typed : op.resultType context leftType rightType = .ok type)
    (leftIncluded : leftType.Includes left)
    (rightIncluded : rightType.Includes right)
    (outcome : op.apply left right = .ok value) :
    type.Includes value := by
  obtain ⟨truths, quotients, sums⟩ := resultType_eq_ok typed
  rcases apply_cases outcome with rfl | ⟨isTruth, truth, rfl⟩ | ⟨isQuotient, number, rfl⟩ |
    ⟨isSum, leftPresent, rightPresent, arithmetic⟩
  · exact ValueType.includes_null type
  · rw [truths isTruth]
    exact trivial
  · rw [quotients isQuotient]
    exact trivial
  · rw [sums isSum]
    rcases arithmetic_cases arithmetic with ⟨_, _, result, _, _, rfl⟩ | ⟨notBoth, number, rfl⟩
    · rcases ValueType.numericJoin?_cases leftType rightType with same | same | same <;>
      · rw [same]
        exact trivial
    · rcases joined : leftType.numericJoin? rightType with _ | joinedType
      · exact trivial
      · rcases ValueType.numericJoin?_cases leftType rightType with same | same | same <;>
          rw [joined, Option.getD_some] at same
        · rw [same] at joined
          obtain ⟨rfl, rfl⟩ := ValueType.eq_int_of_numericJoin? joined
          obtain ⟨first, isFirst⟩ := ValueType.eq_int_of_includes leftIncluded leftPresent
          obtain ⟨second, isSecond⟩ := ValueType.eq_int_of_includes rightIncluded rightPresent
          exact absurd ⟨isFirst, isSecond⟩ (notBoth first second)
        · rw [Option.getD_some, same]
          exact trivial
        · rw [Option.getD_some, same]
          exact trivial

/-- The result of an operator has no parts and is no event. -/
theorem faithful_apply
    {schema : Schema}
    (outcome : op.apply left right = .ok value) :
    value.Faithful schema := by
  rcases apply_cases outcome with rfl | ⟨_, _, rfl⟩ | ⟨_, _, rfl⟩ | ⟨_, _, _, arithmetic⟩
  · exact .null
  · exact .of_plain rfl rfl
  · exact .of_plain rfl rfl
  · rcases arithmetic_cases arithmetic with ⟨_, _, _, _, _, rfl⟩ | ⟨_, _, rfl⟩ <;>
      exact .of_plain rfl rfl

end BinaryOp

/-- The opposite of a value conforms to the types of the value, and has no parts. -/
theorem Value.opposite_of_includes
    (included : type.Includes left)
    (outcome : left.opposite = .ok value) :
    type.Includes value ∧ value.parts = [] ∧ value.asEvent? = none := by
  rw [opposite.eq_def] at outcome
  split at outcome
  next number =>
      split at outcome
      next =>
          cases outcome
          exact ⟨by cases type <;> exact included, rfl, rfl⟩
      next => cases outcome
  next number =>
      cases outcome
      exact ⟨by cases type <;> exact included, rfl, rfl⟩
  next =>
      cases outcome
      exact ⟨ValueType.includes_null type, rfl, rfl⟩
  next => cases outcome

end Operators

section Builtins

variable {items arguments : List Value} {value : Value}

/-- A calendar method results in a value of its type, which has no parts. -/
theorem CalendarMethod.includes_apply
    {method : CalendarMethod}
    {nanos : Int64}
    (outcome : method.apply nanos arguments = .ok value) :
    method.returns.Includes value ∧ value.parts = [] ∧ value.asEvent? = none := by
  have shifts : ∀ sign, method.shift sign nanos arguments = .ok value →
      ValueType.timestamp.Includes value ∧ value.parts = [] ∧ value.asEvent? = none := by
    intro sign shifted
    rw [shift] at shifted
    split at shifted
    next =>
        cases shifted
        exact ⟨trivial, rfl, rfl⟩
    next =>
        cases shifted
        exact ⟨trivial, rfl, rfl⟩
    next =>
        cases shifted
        exact ⟨trivial, rfl, rfl⟩
    next => cases shifted
  cases method with
  | plus => exact shifts 1 outcome
  | minus => exact shifts (-1) outcome
  | _ =>
      cases outcome
      exact ⟨trivial, rfl, rfl⟩

namespace EnumerationMethod

/-- The elements without repetition are some of the elements. -/
theorem distinct_subset
    (items : List Value) :
    distinct items ⊆ items := by
  refine List.foldlRecOn (motive := fun kept => kept ⊆ items) items _ (List.nil_subset items)
    fun kept subset item member => ?_
  split
  next => exact subset
  next => exact List.append_subset.mpr ⟨subset, List.cons_subset.mpr ⟨member, List.nil_subset _⟩⟩

/-- The best number among the elements is one of the elements. -/
theorem extreme_cases
    (better : Binary64 → Binary64 → Bool)
    (items : List Value) :
    extreme better items = .null ∨ extreme better items ∈ items := by
  rw [extreme]
  refine List.foldlRecOn
    (motive := fun best : Option (Value × Binary64) =>
      Value.ofOption (best.map Prod.fst) = .null ∨ Value.ofOption (best.map Prod.fst) ∈ items)
    items _ (.inl rfl) fun best chosen item member => ?_
  split
  next => exact chosen
  next =>
      split
      next => exact .inr member
      next => exact chosen
  next => exact .inr member

/-- A sum is null or a number, and an integer when there are only integers. -/
theorem sum_cases
    (items : List Value) :
    sum items = .null ∨ (∃ total, sum items = .int total) ∨
      (∃ total, sum items = .float total) ∧ ¬ items.all isWhole := by
  rw [sum]
  split
  next =>
      split
      next => exact .inl rfl
      next => exact .inr (.inl ⟨_, rfl⟩)
  next mixed =>
      split
      next => exact .inl rfl
      next => exact .inr (.inr ⟨⟨_, rfl⟩, by simpa using mixed⟩)

theorem mean_cases
    (items : List Value) :
    mean items = .null ∨ ∃ number, mean items = .float number := by
  rw [mean]
  split
  next => exact .inl rfl
  next => exact .inr ⟨_, rfl⟩

theorem includes_sum
    {element : ValueType}
    (numeric : element.isNumeric = true ∨ element.isDynamic = true)
    (included : ∀ item ∈ items, element.Includes item) :
    element.Includes (sum items) := by
  rcases sum_cases items with isNull | ⟨total, isInt⟩ | ⟨⟨total, isFloat⟩, mixed⟩
  · rw [isNull]
    exact ValueType.includes_null element
  · rw [isInt]
    cases element with
    | int | float | any | unknown => exact trivial
    | _ => exact absurd numeric (by simp [ValueType.isNumeric, ValueType.isDynamic])
  · rw [isFloat]
    cases element with
    | float | any | unknown => exact trivial
    | int =>
        refine absurd (List.all_eq_true.mpr fun item member => ?_) mixed
        cases present : item.isNull with
        | true =>
            cases item with
            | null => rfl
            | _ => cases present
        | false =>
            obtain ⟨number, rfl⟩ := ValueType.eq_int_of_includes (included item member) present
            rfl
    | _ => exact absurd numeric (by simp [ValueType.isNumeric, ValueType.isDynamic])

/-- What a method results in: an element, a collection of elements, or a value without parts. -/
theorem apply_cases
    (method : EnumerationMethod)
    (items arguments : List Value) :
    method.apply items arguments ∈ items ∨
      (∃ kept, method.apply items arguments = .array kept ∧ kept ⊆ items) ∨
        (method.apply items arguments).parts = [] ∧
          (method.apply items arguments).asEvent? = none := by
  have plain : ∀ value : Value, value = .null ∨ (∃ number, value = .int number) ∨
      (∃ number, value = .float number) → value.parts = [] ∧ value.asEvent? = none := by
    rintro _ (rfl | ⟨_, rfl⟩ | ⟨_, rfl⟩) <;> exact ⟨rfl, rfl⟩
  have optional : ∀ value? : Option Value, (∀ value, value? = some value → value ∈ items) →
      Value.ofOption value? = .null ∨ Value.ofOption value? ∈ items := by
    intro value? member
    cases value? with
    | none => exact .inl rfl
    | some value => exact .inr (member value rfl)
  have chosen : ∀ value : Value, value = .null ∨ value ∈ items →
      value ∈ items ∨ (∃ kept, value = .array kept ∧ kept ⊆ items) ∨
        value.parts = [] ∧ value.asEvent? = none := by
    rintro value (isNull | member)
    · exact .inr (.inr (plain value (.inl isNull)))
    · exact .inl member
  cases method with
  | countOf => exact .inr (.inr ⟨rfl, rfl⟩)
  | firstOf => exact chosen _ (optional _ fun _ => List.mem_of_head?)
  | lastOf => exact chosen _ (optional _ fun _ => List.mem_of_getLast?)
  | take => exact .inr (.inl ⟨_, rfl, List.take_subset _ _⟩)
  | takeLast => exact .inr (.inl ⟨_, rfl, List.drop_subset _ _⟩)
  | distinctOf => exact .inr (.inl ⟨_, rfl, distinct_subset items⟩)
  | reverse => exact .inr (.inl ⟨_, rfl, fun _ member => List.mem_reverse.mp member⟩)
  | sumOf => exact .inr (.inr (plain _ ((sum_cases items).imp id (.imp id And.left))))
  | average => exact .inr (.inr (plain _ ((mean_cases items).imp id .inr)))
  | minOf => exact chosen _ (extreme_cases _ items)
  | maxOf => exact chosen _ (extreme_cases _ items)

/-- The result conforms to the type that the method has for elements of a type. -/
theorem includes_apply
    {element : ValueType}
    (method : EnumerationMethod)
    (included : ∀ item ∈ items, element.Includes item) :
    (method.returns element).Includes (method.apply items arguments) := by
  have optional : ∀ value : Value, value = .null ∨ value ∈ items → element.Includes value := by
    rintro value (rfl | member)
    · exact ValueType.includes_null element
    · exact included value member
  have numeric : ∀ value : Value,
      (element.isNumeric = true ∨ element.isDynamic = true → element.Includes value) →
        (if element.isNumeric || element.isDynamic then element else .unknown).Includes value := by
    intro value conforms
    split
    next isNumeric => exact conforms (Bool.or_eq_true _ _ ▸ isNumeric)
    next => exact ValueType.includes_of_isDynamic rfl value
  cases method with
  | countOf => exact trivial
  | firstOf => exact ValueType.includes_ofOption fun _ found => included _ (List.mem_of_head? found)
  | lastOf =>
      exact ValueType.includes_ofOption fun _ found => included _ (List.mem_of_getLast? found)
  | take => exact fun item member => included item (List.mem_of_mem_take member)
  | takeLast => exact fun item member => included item (List.mem_of_mem_drop member)
  | distinctOf => exact fun item member => included item (distinct_subset items member)
  | reverse => exact fun item member => included item (List.mem_reverse.mp member)
  | sumOf => exact numeric _ fun isNumeric => includes_sum isNumeric included
  | average =>
      rcases mean_cases items with isNull | ⟨number, isFloat⟩
      · rw [apply, isNull]
        exact ValueType.includes_null _
      · rw [apply, isFloat]
        exact trivial
  | minOf => exact numeric _ fun _ => optional _ (extreme_cases _ items)
  | maxOf => exact numeric _ fun _ => optional _ (extreme_cases _ items)

end EnumerationMethod

end Builtins

end EventQuery
