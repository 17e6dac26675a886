import EventQuery.Proofs.Number.Binary64
import EventQuery.Proofs.Store.Entries
import EventQuery.Value.Key

namespace EventQuery

/-!
# Keys and equality of values

The key of a value is made to be compared, and the keys of two values should be equal exactly when
the values are.  Equality of maps does not regard the order of their entries, while the key of a map
lists them in their order.  So equal keys stand for equal values, but equal values have equal keys
only when maps at the same places of the values list their entries in the same order.
-/

namespace Value

/-! ## Order of entries -/

mutual

/-- Whether maps at the same places of two values list their entries in the same order. -/
def sameOrder : Value → Value → Bool
  | .array lefts, .array rights => itemsInOrder lefts rights
  | .map lefts, .map rights => entriesInOrder lefts rights
  | _, _ => true

/-- Whether elements at equal positions list entries in the same order. -/
def itemsInOrder : List Value → List Value → Bool
  | left :: lefts, right :: rights => sameOrder left right && itemsInOrder lefts rights
  | _, _ => true

/-- Whether entries at equal positions have the same name and list entries in the same order. -/
def entriesInOrder : List (String × Value) → List (String × Value) → Bool
  | (name, left) :: lefts, (other, right) :: rights =>
      name == other && sameOrder left right && entriesInOrder lefts rights
  | _, _ => true

end

/-- Whether two values are equal and list the entries of their maps in the same order. -/
def EqualInOrder (first second : Value) : Prop :=
  first.equals second = true ∧ first.sameOrder second = true

instance (first second : Value) : Decidable (first.EqualInOrder second) :=
  inferInstanceAs (Decidable (_ ∧ _))

/-- A value without maps. -/
inductive Mapless : Value → Prop
  | array {items : List Value}
      (each : ∀ item ∈ items, Mapless item) :
      Mapless (.array items)
  | single {value : Value}
      (noArray : value.asArray? = none)
      (noMap : ∀ entries, value ≠ .map entries) :
      Mapless value

/-- Two values list their entries in the same order when one of them has none. -/
theorem Mapless.sameOrder
    {value : Value}
    (mapless : value.Mapless)
    (other : Value) :
    value.sameOrder other = true := by
  induction mapless generalizing other with
  | @array items each inductionHypothesis =>
      cases other with
      | array others =>
          rw [Value.sameOrder]
          clear each
          induction items generalizing others with
          | nil => rw [itemsInOrder]; exact nofun
          | cons item rest restHypothesis =>
              rw [List.forall_mem_cons] at inductionHypothesis
              cases others with
              | nil => rfl
              | cons first others =>
                  rw [itemsInOrder, inductionHypothesis.1 first,
                    restHypothesis inductionHypothesis.2 others]
                  rfl
      | _ => rfl
  | @single value noArray noMap =>
      cases value with
      | array items => cases noArray
      | map entries => exact absurd rfl (noMap entries)
      | _ => rfl

/-! ## Values that can be keyed -/

/--
Values without NaN in whose maps no name is there twice, as far as values are compared: what is in an
event or an object does not matter.  Different entities have different identities, so an identity is
either that of an event or that of an object.
-/
inductive Keyable (isEvent : Identity → Bool) : Value → Prop
  | null : Keyable isEvent .null
  | bool (truth : Bool) : Keyable isEvent (.bool truth)
  | int (number : Int64) : Keyable isEvent (.int number)
  | float {number : Binary64}
      (isNumber : number.isNaN = false) :
      Keyable isEvent (.float number)
  | str (text : String) : Keyable isEvent (.str text)
  | timestamp (nanos : Int64) : Keyable isEvent (.timestamp nanos)
  | duration (nanos : UInt64) : Keyable isEvent (.duration nanos)
  | array {items : List Value}
      (each : ∀ item ∈ items, Keyable isEvent item) :
      Keyable isEvent (.array items)
  | map {entries : Fields Value}
      (distinct : entries.Distinct)
      (each : ∀ entry ∈ entries, Keyable isEvent entry.2) :
      Keyable isEvent (.map entries)
  | event {entity : Entity Value}
      (ofEvent : isEvent entity.identity = true) :
      Keyable isEvent (.event entity)
  | object {entity : Entity Value}
      (ofObject : isEvent entity.identity = false) :
      Keyable isEvent (.object entity)

/-- The identity of an event is not that of an object. -/
theorem identity_ne
    {isEvent : Identity → Bool}
    {event object : Entity Value}
    (ofEvent : isEvent event.identity = true)
    (ofObject : isEvent object.identity = false) :
    event.identity ≠ object.identity := by
  intro same
  rw [same, ofObject] at ofEvent
  cases ofEvent

/-! ## Equal keys -/

/-- The word that a number is keyed by: that of zero for zeros with any sign. -/
def keyWord (number : Binary64) : Binary64 := if number.equals .zero then .zero else number

/-- Numbers have one key exactly when they are equal. -/
theorem keyWord_eq_iff
    {left right : Binary64}
    (isLeft : left.isNaN = false)
    (isRight : right.isNaN = false) :
    keyWord left = keyWord right ↔ left.equals right = true := by
  have zero_iff : ∀ {number : Binary64}, number.isNaN = false →
      (number.equals .zero = true ↔ number.magnitude = 0) := by
    intro number isNumber
    rw [Binary64.equals_iff, Binary64.place_eq_iff]
    constructor
    · rintro ⟨-, -, rfl | zeros⟩
      · rfl
      · exact zeros.1
    · exact fun isZero => ⟨isNumber, rfl, .inr ⟨isZero, rfl⟩⟩
  have equals_iff : left.equals right = true ↔
      left = right ∨ left.magnitude = 0 ∧ right.magnitude = 0 := by
    rw [Binary64.equals_iff, Binary64.place_eq_iff, and_iff_right isLeft, and_iff_right isRight]
  rw [equals_iff, keyWord, keyWord]
  simp only [zero_iff isLeft, zero_iff isRight]
  split
  next leftZero =>
      split
      next rightZero => exact iff_of_true rfl (.inr ⟨leftZero, rightZero⟩)
      next rightNot =>
          refine iff_of_false ?_ ?_
          · rintro rfl
            exact rightNot rfl
          · rintro (rfl | zeros)
            · exact rightNot leftZero
            · exact rightNot zeros.2
  next leftNot =>
      split
      next rightZero =>
          refine iff_of_false ?_ ?_
          · rintro rfl
            exact leftNot rfl
          · rintro (rfl | zeros)
            · exact leftNot rightZero
            · exact leftNot zeros.1
      next => exact (or_iff_left fun zeros => leftNot zeros.1).symm

section Parts

variable {isEvent : Identity → Bool}

/-- Whether the key of a value agrees with equality and the order of entries. -/
def KeyAgrees (isEvent : Identity → Bool) (value : Value) : Prop :=
  ∀ {other : Value}, other.Keyable isEvent → (value.key = other.key ↔ value.EqualInOrder other)

/-- The keys of elements agree with equality when those of the single elements do. -/
theorem itemKeys_eq_iff
    {lefts rights : List Value}
    (each : ∀ item ∈ lefts, item.KeyAgrees isEvent)
    (keyable : ∀ item ∈ rights, item.Keyable isEvent) :
    itemKeys lefts = itemKeys rights ↔
      itemsEqual lefts rights = true ∧ itemsInOrder lefts rights = true := by
  induction lefts generalizing rights with
  | nil => cases rights <;> simp [itemKeys, itemsEqual, itemsInOrder]
  | cons left lefts inductionHypothesis =>
      cases rights with
      | nil => simp [itemKeys, itemsEqual]
      | cons right rights =>
          rw [List.forall_mem_cons] at each keyable
          rw [itemKeys, itemKeys, ItemKeys.cons.injEq, each.1 keyable.1,
            inductionHypothesis each.2 keyable.2, itemsEqual, itemsInOrder, EqualInOrder,
            Bool.and_eq_true, Bool.and_eq_true]
          exact and_and_and_comm

/-- The keys of entries agree with equality when those of the single values do. -/
theorem entryKeys_eq_iff
    {lefts rights others : Fields Value}
    (each : ∀ entry ∈ lefts, entry.2.KeyAgrees isEvent)
    (keyable : ∀ entry ∈ rights, entry.2.Keyable isEvent)
    (found : ∀ entry ∈ rights, others.find? entry.1 = some entry.2) :
    entryKeys lefts = entryKeys rights ↔
      (lefts.length = rights.length ∧ entriesIn lefts others = true) ∧
        entriesInOrder lefts rights = true := by
  induction lefts generalizing rights with
  | nil => cases rights <;> simp [entryKeys, entriesIn, entriesInOrder]
  | cons entry lefts inductionHypothesis =>
      obtain ⟨name, left⟩ := entry
      cases rights with
      | nil => simp [entryKeys]
      | cons other rights =>
          obtain ⟨otherName, right⟩ := other
          rw [List.forall_mem_cons] at each keyable found
          have rest := inductionHypothesis each.2 keyable.2 found.2
          rw [entryKeys, entryKeys, EntryKeys.cons.injEq, each.1 keyable.1, rest, entriesIn,
            entriesInOrder, EqualInOrder]
          by_cases sameName : name = otherName
          · subst sameName
            rw [found.1]
            simp only [List.length_cons, Nat.add_right_cancel_iff, Bool.and_eq_true, beq_self_eq_true,
              true_and]
            tauto
          · simp [sameName]

end Parts

/--
The key of a value is that of another one exactly when the values are equal and list the entries of
their maps in the same order.
-/
theorem Keyable.key_eq_iff
    {isEvent : Identity → Bool}
    {first second : Value}
    (isFirst : first.Keyable isEvent)
    (isSecond : second.Keyable isEvent) :
    first.key = second.key ↔ first.EqualInOrder second := by
  rw [EqualInOrder]
  induction isFirst generalizing second with
  | null => cases isSecond <;> simp [key, equals, sameOrder]
  | bool truth => cases isSecond <;> simp [key, equals, sameOrder]
  | int number => cases isSecond <;> simp [key, equals, sameOrder]
  | @float number isNumber =>
      cases isSecond with
      | @float other isOther =>
          simp only [key, equals, sameOrder, ValueKey.float.injEq, and_true]
          exact keyWord_eq_iff isNumber isOther
      | _ => simp [key, equals]
  | str text => cases isSecond <;> simp [key, equals, sameOrder]
  | timestamp nanos => cases isSecond <;> simp [key, equals, sameOrder]
  | duration nanos => cases isSecond <;> simp [key, equals, sameOrder]
  | @array items each inductionHypothesis =>
      cases isSecond with
      | @array others eachOther =>
          rw [key, key, ValueKey.array.injEq, equals, sameOrder]
          exact itemKeys_eq_iff inductionHypothesis eachOther
      | _ => simp [key, equals]
  | @map entries distinct each inductionHypothesis =>
      cases isSecond with
      | @map others distinctOthers eachOther =>
          rw [key, key, ValueKey.map.injEq, equals, sameOrder, Bool.and_eq_true, beq_iff_eq]
          exact entryKeys_eq_iff inductionHypothesis eachOther fun entry member =>
            distinctOthers.find?_eq_some member
      | _ => simp [key, equals]
  | @event entity ofEvent =>
      cases isSecond with
      | @event other => simp [key, equals, sameOrder]
      | @object other ofObject =>
          simp [key, equals, identity_ne ofEvent ofObject]
      | _ => simp [key, equals]
  | @object entity ofObject =>
      cases isSecond with
      | @object other => simp [key, equals, sameOrder]
      | @event other ofEvent =>
          simp [key, equals, (identity_ne ofEvent ofObject).symm]
      | _ => simp [key, equals]

end Value

end EventQuery
