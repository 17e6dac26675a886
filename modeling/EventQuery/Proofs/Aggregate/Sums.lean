import EventQuery.Proofs.Aggregate.Recount
import Mathlib.Algebra.Ring.Int.Defs
import Mathlib.Data.List.Induction

namespace EventQuery

/-!
# Sums of integers

A row enters an integer sum only when the sum of the word that is held and the new integer is in the
64-bit range; otherwise the row is refused and not held.  A row that leaves is subtracted without
such a test.  So the word is the exact sum of the integers that are held, brought into the range
modulo a power of two, and it is the exact sum itself as long as no row that left has brought the
exact sum out of the range.
-/

namespace RunningSum

/-- A running sum has added some integers and nothing else. -/
structure Adds (sum : RunningSum) (numbers : List Int) : Prop where
  count : sum.count = numbers.length
  whole : sum.whole = Int64.ofInt numbers.sum
  allWhole : sum.allWhole = true

variable {sum : RunningSum} {numbers : List Int}

theorem adds_empty : empty.Adds [] := ⟨rfl, rfl, rfl⟩

/-- An integer is added when the sum with the held word is in the range. -/
theorem Adds.insertWhole
    (adds : sum.Adds numbers)
    {number : Int64}
    (inside : Word.fits ((Int64.ofInt numbers.sum).toInt + number.toInt) = true) :
    ∃ changed, sum.insertWhole number = .ok changed ∧
      changed.Adds (numbers ++ [number.toInt]) := by
  have added : Word.checked (sum.whole.toInt + number.toInt) =
      some (Int64.ofInt (sum.whole.toInt + number.toInt)) := by
    rw [Word.checked, adds.whole, if_pos inside]
  refine ⟨_, by rw [RunningSum.insertWhole, if_pos adds.allWhole, added]; rfl, ?_, ?_, ?_⟩
  · rw [List.length_append, List.length_singleton, ← adds.count]
  · dsimp only
    rw [Int64.ofInt_add, Int64.ofInt_toInt, Int64.ofInt_toInt, adds.whole, List.sum_append,
      List.sum_singleton, Int64.ofInt_add, Int64.ofInt_toInt]
  · exact adds.allWhole

/-- An integer is refused when the sum with the held word is out of the range. -/
theorem Adds.insertWhole_refused
    (adds : sum.Adds numbers)
    {number : Int64}
    (outside : Word.fits ((Int64.ofInt numbers.sum).toInt + number.toInt) ≠ true) :
    ∃ fault, sum.insertWhole number = .error fault := by
  have refused : Word.checked (sum.whole.toInt + number.toInt) = none := by
    rw [Word.checked, adds.whole, if_neg outside]
  exact ⟨_, by rw [RunningSum.insertWhole, if_pos adds.allWhole, refused]; rfl⟩

/-- The integer that was added first is taken out. -/
theorem Adds.eraseWhole
    {number : Int64}
    (adds : sum.Adds (number.toInt :: numbers)) :
    (sum.eraseWhole number).Adds numbers where
  count := congrArg (· - 1) adds.count
  whole := by
    rw [RunningSum.eraseWhole]
    dsimp only
    rw [if_pos adds.allWhole, adds.whole, List.sum_cons, Int64.ofInt_add, Int64.ofInt_toInt,
      Int64.add_comm, Int64.add_sub_cancel]
  allWhole := adds.allWhole

/-- The sum is null without integers, and otherwise the word of the exact sum. -/
theorem Adds.value_eq
    (adds : sum.Adds numbers) :
    sum.value = if numbers = [] then .null else .int (Int64.ofInt numbers.sum) := by
  rw [value, adds.count, adds.whole, if_pos adds.allWhole]
  simp only [List.length_eq_zero_iff]

end RunningSum

namespace AggregateState

/-- The value of an argument on a row; it is null where there is none. -/
def valueOn (argument : Option Node) (row : Row) : Value :=
  Value.ofOption (input argument row []).toOption.join

/-- The integer that a row adds to a sum over an argument, if it adds one. -/
def integer? (argument : Option Node) (row : Row) : Option Int :=
  match valueOn argument row with
  | .int number => some number.toInt
  | _ => none

/-- The integers that rows add to a sum over an argument. -/
def integers (argument : Option Node) (rows : List Row) : List Int :=
  rows.filterMap (integer? argument)

theorem integers_append
    (argument : Option Node)
    (rows : List Row)
    (row : Row) :
    integers argument (rows ++ [row]) =
      integers argument rows ++ (integer? argument row).toList := by
  rw [integers, List.filterMap_append, List.filterMap_cons, List.filterMap_nil, integers]
  cases integer? argument row <;> rfl

theorem integers_cons
    (argument : Option Node)
    (row : Row)
    (rows : List Row) :
    integers argument (row :: rows) =
      (integer? argument row).toList ++ integers argument rows := by
  rw [integers, List.filterMap_cons, integers]
  cases integer? argument row <;> rfl

/-- The value on a row is null and adds no integer, or it is the integer that it adds. -/
theorem valueOn_cases
    {argument : Option Node}
    {row : Row}
    (typed : ∀ node ∈ argument, node.HasTyped .int row) :
    valueOn argument row = .null ∧ integer? argument row = none ∨
      ∃ number : Int64,
        valueOn argument row = .int number ∧ integer? argument row = some number.toInt := by
  have included : ValueType.int.Includes (valueOn argument row) := includes_input typed
  rw [integer?]
  cases isValue : valueOn argument row with
  | null => exact .inl ⟨rfl, rfl⟩
  | int number => exact .inr ⟨number, rfl, rfl⟩
  | _ =>
      rw [isValue] at included
      exact included.elim

/-- An update that is a fault changes nothing. -/
theorem whole_of_fault
    {state : AggregateState}
    {outcome : Except Fault AggregateState}
    {fault : Fault}
    (refused : (state.whole outcome).2 = some fault) :
    (state.whole outcome).1 = state := by
  cases outcome with
  | ok changed => cases refused
  | error report => rfl

/-- A sum is told of a row that enters by the value of its argument. -/
theorem enter_sum
    {argument : Option Node}
    {type : ValueType}
    {row : Row}
    (typed : ∀ node ∈ argument, node.HasTyped type row)
    (running : RunningSum)
    (occasion : Occasion) :
    (accumulator argument (.sum running)).enter row occasion =
      (accumulator argument (.sum running)).whole
        ((Accumulator.insertSum running (valueOn argument row)).map fun changed =>
          .accumulator argument (.sum changed)) := by
  rw [enter, input_eq typed occasion, valueOn]
  cases inserted : Accumulator.insertSum running
      (Value.ofOption (input argument row []).toOption.join) <;>
    simp only [bind, Except.bind, Accumulator.enter, inserted] <;> rfl

/-- A sum is told of a row that leaves by the value of its argument. -/
theorem leave_sum
    {argument : Option Node}
    {type : ValueType}
    {row : Row}
    (typed : ∀ node ∈ argument, node.HasTyped type row)
    (running : RunningSum)
    (occasion : Occasion) :
    (accumulator argument (.sum running)).leave row occasion =
      (accumulator argument (.sum running)).whole
        ((Accumulator.eraseSum running (valueOn argument row)).map fun changed =>
          .accumulator argument (.sum changed)) := by
  rw [leave, input_eq typed occasion, valueOn]
  cases erased : Accumulator.eraseSum running
      (Value.ofOption (input argument row []).toOption.join) <;>
    simp only [bind, Except.bind, Accumulator.leave, erased] <;> rfl

end AggregateState

/-! ## Held rows -/

/-- The rows that a state holds, the oldest one first: those that entered without a fault. -/
structure HeldRows where
  rows : List Row
  state : AggregateState

namespace HeldRows

/-- A state that holds no rows. -/
def opened (state : AggregateState) : HeldRows := ⟨[], state⟩

/-- A row enters and is held unless it is refused, or the oldest row that is held leaves. -/
def after (held : HeldRows) : WindowTurn → HeldRows
  | .enter row occasion =>
      let (state, fault) := held.state.enter row occasion
      ⟨if fault.isSome then held.rows else held.rows ++ [row], state⟩
  | .leave occasion =>
      match held.rows with
      | [] => held
      | oldest :: rest => ⟨rest, (held.state.leave oldest occasion).1⟩

open AggregateState (integer? integers valueOn)

/-- The state of held rows is a sum over an argument that has added the integers of the rows. -/
structure Sums (argument : Option Node) (held : HeldRows) : Prop where
  adds : ∃ running, held.state = .accumulator argument (.sum running) ∧
    running.Adds (integers argument held.rows)
  typed : ∀ row ∈ held.rows, ∀ node ∈ argument, node.HasTyped .int row

variable {argument : Option Node} {held : HeldRows} {row : Row}

/-- Whether the word that is held and the integer of a row have a sum in the range. -/
def Takes (argument : Option Node) (held : HeldRows) (row : Row) : Prop :=
  Word.fits ((Int64.ofInt (integers argument held.rows).sum).toInt +
    ((integer? argument row).getD 0)) = true

/-- A row enters when its integer can be added to the word that is held. -/
theorem Sums.enter
    (sums : held.Sums argument)
    (typed : ∀ node ∈ argument, node.HasTyped .int row)
    (takes : held.Takes argument row)
    (occasion : Occasion) :
    (held.state.enter row occasion).2 = none ∧
      (held.after (.enter row occasion)).rows = held.rows ++ [row] ∧
      (held.after (.enter row occasion)).Sums argument := by
  obtain ⟨⟨running, isState, adds⟩, typedRows⟩ := sums
  obtain ⟨changed, inserted, addsChanged⟩ : ∃ changed,
      Accumulator.insertSum running (valueOn argument row) = .ok changed ∧
        changed.Adds (integers argument (held.rows ++ [row])) := by
    rw [AggregateState.integers_append]
    rcases AggregateState.valueOn_cases typed with
      ⟨isNull, noInteger⟩ | ⟨number, isNumber, isInteger⟩
    · rw [isNull, noInteger]
      exact ⟨running, rfl, (List.append_nil (integers argument held.rows)).symm ▸ adds⟩
    · rw [Takes, isInteger] at takes
      rw [isNumber, isInteger]
      exact adds.insertWhole takes
  have entered : held.state.enter row occasion = (.accumulator argument (.sum changed), none) := by
    rw [isState, AggregateState.enter_sum typed, inserted]
    rfl
  have turned : held.after (.enter row occasion) =
      ⟨held.rows ++ [row], .accumulator argument (.sum changed)⟩ := by
    rw [after, entered]
    rfl
  rw [entered, turned]
  exact ⟨rfl, rfl, ⟨changed, rfl, addsChanged⟩,
    List.forall_mem_append.mpr ⟨typedRows, List.forall_mem_singleton.mpr typed⟩⟩

/-- A row is refused when its integer cannot be added, and then nothing is changed. -/
theorem Sums.refuse
    (sums : held.Sums argument)
    (typed : ∀ node ∈ argument, node.HasTyped .int row)
    (refuses : ¬ held.Takes argument row)
    (occasion : Occasion) :
    (∃ fault, (held.state.enter row occasion).2 = some fault) ∧
      held.after (.enter row occasion) = held := by
  obtain ⟨⟨running, isState, adds⟩, _⟩ := sums
  obtain ⟨fault, refused⟩ : ∃ fault,
      Accumulator.insertSum running (valueOn argument row) = .error fault := by
    rcases AggregateState.valueOn_cases typed with ⟨_, noInteger⟩ | ⟨number, isNumber, isInteger⟩
    · refine absurd ?_ refuses
      rw [Takes, noInteger, Option.getD_none, Int.add_zero]
      exact Word.fits_toInt _
    · rw [Takes, isInteger] at refuses
      rw [isNumber]
      exact adds.insertWhole_refused refuses
  have entered : held.state.enter row occasion = (held.state, some fault) := by
    rw [isState, AggregateState.enter_sum typed, refused]
    rfl
  refine ⟨⟨fault, congrArg Prod.snd entered⟩, ?_⟩
  rw [after, entered]
  rfl

/-- A row that enters with a fault leaves the state as it is. -/
theorem Sums.state_of_fault
    (sums : held.Sums argument)
    {occasion : Occasion}
    {fault : Fault}
    (refused : (held.state.enter row occasion).2 = some fault) :
    (held.state.enter row occasion).1 = held.state := by
  obtain ⟨⟨running, isState, _⟩, _⟩ := sums
  rw [isState, AggregateState.enter] at refused ⊢
  exact AggregateState.whole_of_fault refused

/-- The integer of the oldest row is taken out when the row leaves. -/
theorem Sums.leave
    (sums : held.Sums argument)
    (occasion : Occasion) :
    (held.after (.leave occasion)).Sums argument := by
  obtain ⟨⟨running, isState, adds⟩, typedRows⟩ := sums
  cases isRows : held.rows with
  | nil =>
      have stays : held.after (.leave occasion) = held := by rw [after, isRows]
      exact stays.symm ▸ ⟨⟨running, isState, adds⟩, typedRows⟩
  | cons oldest rest =>
      rw [isRows, List.forall_mem_cons] at typedRows
      rw [isRows, AggregateState.integers_cons] at adds
      obtain ⟨changed, erased, addsChanged⟩ : ∃ changed,
          Accumulator.eraseSum running (valueOn argument oldest) = .ok changed ∧
            changed.Adds (integers argument rest) := by
        rcases AggregateState.valueOn_cases typedRows.1 with
          ⟨isNull, noInteger⟩ | ⟨number, isNumber, isInteger⟩
        · rw [noInteger] at adds
          exact ⟨running, by rw [isNull]; rfl, adds⟩
        · rw [isInteger] at adds
          exact ⟨running.eraseWhole number, by rw [isNumber]; rfl, adds.eraseWhole⟩
      have left : held.state.leave oldest occasion =
          (.accumulator argument (.sum changed), none) := by
        rw [isState, AggregateState.leave_sum typedRows.1, erased]
        rfl
      have turned : held.after (.leave occasion) =
          ⟨rest, .accumulator argument (.sum changed)⟩ := by
        rw [after, isRows]
        simp only [left]
      rw [turned]
      exact ⟨⟨changed, rfl, addsChanged⟩, typedRows.2⟩

/-- A sum stays one through all turns. -/
theorem Sums.turns
    (sums : held.Sums argument)
    (turns : List WindowTurn)
    (typed : ∀ row occasion, .enter row occasion ∈ turns →
      ∀ node ∈ argument, node.HasTyped .int row) :
    (turns.foldl after held).Sums argument := by
  induction turns generalizing held with
  | nil => exact sums
  | cons turn rest inductionHypothesis =>
      have typedRest : ∀ row occasion, .enter row occasion ∈ rest →
          ∀ node ∈ argument, node.HasTyped .int row :=
        fun row occasion member => typed row occasion (List.mem_cons_of_mem _ member)
      cases turn with
      | enter row occasion =>
          have typedRow := typed row occasion List.mem_cons_self
          by_cases takes : held.Takes argument row
          · exact inductionHypothesis (sums.enter typedRow takes occasion).2.2 typedRest
          · rw [List.foldl_cons, (sums.refuse typedRow takes occasion).2]
            exact inductionHypothesis sums typedRest
      | leave occasion => exact inductionHypothesis (sums.leave occasion) typedRest

/-- A row enters exactly when its integer can be added to the word that is held. -/
theorem Sums.enter_iff
    (sums : held.Sums argument)
    (typed : ∀ node ∈ argument, node.HasTyped .int row)
    (occasion : Occasion) :
    (held.state.enter row occasion).2 = none ↔ held.Takes argument row := by
  refine ⟨fun entered => ?_, fun takes => (sums.enter typed takes occasion).1⟩
  by_contra refuses
  obtain ⟨fault, refused⟩ := (sums.refuse typed refuses occasion).1
  cases entered.symm.trans refused

/-- Whether what is held has a sum in the range after each turn in which a row leaves. -/
def LeavesFit (argument : Option Node) (held : HeldRows) (turns : List WindowTurn) : Prop :=
  ∀ taken occasion, taken ++ [.leave occasion] <+: turns →
    Word.fits (integers argument ((taken ++ [.leave occasion]).foldl after held).rows).sum = true

/-- While the sum of what is held is in the range, a row enters when the exact sum stays there. -/
theorem takes_iff
    (inside : Word.fits (integers argument held.rows).sum = true) :
    held.Takes argument row ↔
      Word.fits ((integers argument held.rows).sum + (integer? argument row).getD 0) = true := by
  rw [Takes, Word.toInt_ofInt_of_fits inside]

/-- What is held has a sum in the range after all turns when it has after those that take out. -/
theorem Sums.fits_turns
    (sums : held.Sums argument)
    (inside : Word.fits (integers argument held.rows).sum = true)
    (turns : List WindowTurn)
    (typed : ∀ row occasion, .enter row occasion ∈ turns →
      ∀ node ∈ argument, node.HasTyped .int row)
    (leavesFit : LeavesFit argument held turns) :
    Word.fits (integers argument (turns.foldl after held).rows).sum = true := by
  -- a row that enters is tested against the word, which is the exact sum before the last turn
  induction turns using List.reverseRecOn with
  | nil => exact inside
  | append_singleton earlier turn inductionHypothesis =>
      have typedEarlier : ∀ row occasion, .enter row occasion ∈ earlier →
          ∀ node ∈ argument, node.HasTyped .int row :=
        fun row occasion member => typed row occasion (List.mem_append_left _ member)
      have insideEarlier := inductionHypothesis typedEarlier fun taken occasion isFirst =>
        leavesFit taken occasion (isFirst.trans (List.prefix_append _ _))
      cases turn with
      | leave occasion => exact leavesFit earlier occasion (List.prefix_refl _)
      | enter row occasion =>
          have sumsEarlier := sums.turns earlier typedEarlier
          have typedRow := typed row occasion (List.mem_append_right _ (List.mem_singleton_self _))
          rw [List.foldl_append, List.foldl_cons, List.foldl_nil]
          by_cases takes : (earlier.foldl after held).Takes argument row
          · rw [(sumsEarlier.enter typedRow takes occasion).2.1, AggregateState.integers_append,
              List.sum_append]
            cases added : integer? argument row <;>
              simpa [added] using (takes_iff insideEarlier).mp takes
          · rw [(sumsEarlier.refuse typedRow takes occasion).2]
            exact insideEarlier

/--
An integer sum is null without integers and otherwise the exact sum of the integers that are held,
brought into the range of words; a row that is refused leaves it as it is.  As long as the exact sum
is in the range whenever a row has left, the word is the exact sum, and a row is refused exactly
when it would bring the exact sum out of the range.
-/
theorem reads_sum
    {call : AggregateCall}
    {handler : AggregateHandler}
    (isSum : AggregateKind.ofName? call.function = some .sum)
    (isHandler : AggregateCatalog.standard.handle call = .ok handler)
    (turns : List WindowTurn)
    (typed : ∀ row occasion, .enter row occasion ∈ turns →
      ∀ argument ∈ call.arguments, argument.HasTyped .int row)
    (occasion : Occasion)
    (statement : StatementId)
    (group : GroupKey) :
    ∃ state, handler.create occasion statement group = .ok state ∧
      let held := turns.foldl after (opened state)
      let numbers := integers call.arguments.head? held.rows
      handler.read held.state =
          (if numbers = [] then .null else .int (Int64.ofInt numbers.sum)) ∧
        (∀ row other fault, (held.state.enter row other).2 = some fault →
          handler.read (held.state.enter row other).1 = handler.read held.state) ∧
        (LeavesFit call.arguments.head? (opened state) turns →
          (Int64.ofInt numbers.sum).toInt = numbers.sum ∧
            ∀ row other, (∀ argument ∈ call.arguments, argument.HasTyped .int row) →
              ((held.state.enter row other).2 = none ↔
                Word.fits (numbers.sum + (integer? call.arguments.head? row).getD 0) = true)) := by
  obtain ⟨returns, rfl⟩ :=
    AggregateKind.eq_of_handle (AggregateCatalog.handle_standard isSum ▸ isHandler)
  have atOpening : (opened (.accumulator call.arguments.head? (.sum .empty))).Sums
      call.arguments.head? := ⟨⟨_, rfl, RunningSum.adds_empty⟩, nofun⟩
  have typedHead : ∀ {row}, (∀ argument ∈ call.arguments, argument.HasTyped .int row) →
      ∀ node ∈ call.arguments.head?, node.HasTyped .int row :=
    fun typedRow node isHead => typedRow node (List.mem_of_mem_head? isHead)
  have typedTurns := fun row occasion member => typedHead (typed row occasion member)
  have sums := atOpening.turns turns typedTurns
  refine ⟨_, rfl, ?_, ?_, fun leavesFit => ?_⟩
  · obtain ⟨⟨running, isState, adds⟩, _⟩ := sums
    exact (congrArg _ isState).trans adds.value_eq
  · intro row other fault refused
    exact congrArg _ (sums.state_of_fault refused)
  · have inside := atOpening.fits_turns rfl turns typedTurns leavesFit
    refine ⟨Word.toInt_ofInt_of_fits inside, fun row other typedRow => ?_⟩
    exact (sums.enter_iff (typedHead typedRow) other).trans (takes_iff inside)

/-- The sum of the amounts in a window, as a call. -/
def sumOfAmounts : AggregateCall := ⟨"Sum", [.slot 0 .int], false, true, 0⟩

/-- The handler of the sum of the amounts. -/
def handlerOfAmounts : AggregateHandler :=
  AggregateKind.sum.handler sumOfAmounts (some (.slot 0 .int)) .int

/-- Rows of one amount. -/
def amounts (turns : List WindowTurn) : HeldRows :=
  turns.foldl after (opened (.accumulator (some (.slot 0 .int)) (.sum .empty)))

/-- Five enters, the greatest word is refused, minus seven enters, and the five leaves. -/
def turnsOfAmounts : List WindowTurn :=
  [.enter [.int 5] [], .enter [.int Int64.maxValue] [], .enter [.int (-7)] [], .leave []]

theorem leavesFit_turnsOfAmounts :
    LeavesFit (some (.slot 0 .int)) (amounts []) turnsOfAmounts := by
  rintro taken occasion ⟨rest, whole⟩
  have noneFurther : taken = turnsOfAmounts.take 3 := by
    rcases taken with _ | ⟨_, _ | ⟨_, _ | ⟨_, _ | ⟨_, _⟩⟩⟩⟩ <;>
      simp_all [turnsOfAmounts]
  rw [noneFurther]
  rfl

theorem reads_sum_turnsOfAmounts :
    handlerOfAmounts.read (amounts turnsOfAmounts).state = .int (-7) ∧
      (Int64.ofInt (-7)).toInt = -7 := by
  have isSum : AggregateKind.ofName? sumOfAmounts.function = some .sum := by decide +kernel
  have isHandler : AggregateCatalog.standard.handle sumOfAmounts = .ok handlerOfAmounts := by
    rw [AggregateCatalog.handle_standard isSum]
    rfl
  have typed : ∀ row occasion, .enter row occasion ∈ turnsOfAmounts →
      ∀ argument ∈ sumOfAmounts.arguments, argument.HasTyped .int row := by
    intro row occasion member argument isArgument
    simp only [turnsOfAmounts, sumOfAmounts, List.mem_cons, List.not_mem_nil, or_false,
      WindowTurn.enter.injEq, reduceCtorEq] at member isArgument
    rcases isArgument with rfl
    rcases member with ⟨rfl, -⟩ | ⟨rfl, -⟩ | ⟨rfl, -⟩
    · exact ⟨.int 5, trivial, fun _ => rfl⟩
    · exact ⟨.int Int64.maxValue, trivial, fun _ => rfl⟩
    · exact ⟨.int (-7), trivial, fun _ => rfl⟩
  obtain ⟨state, isState, reads, _, exact⟩ :=
    reads_sum isSum isHandler turnsOfAmounts typed [] 0 default
  cases isState
  exact ⟨reads.trans rfl, (exact leavesFit_turnsOfAmounts).1⟩

/--
When minus one leaves a sum with the greatest word and one, no fault is reported and the least word
is read, while the integers that are held have a sum beyond the greatest word.
-/
theorem not_exact_after_leave :
    let held := amounts
      [.enter [.int (-1)] [], .enter [.int Int64.maxValue] [], .enter [.int 1] []]
    (held.state.leave [.int (-1)] []).2 = none ∧
      (held.after (.leave [])).rows = [[.int Int64.maxValue], [.int 1]] ∧
      integers (some (.slot 0 .int)) (held.after (.leave [])).rows = [9223372036854775807, 1] ∧
      handlerOfAmounts.read (held.after (.leave [])).state = .int Int64.minValue ∧
      Int64.minValue.toInt ≠ [9223372036854775807, 1].sum :=
  ⟨rfl, rfl, rfl, rfl, by decide⟩

end HeldRows

end EventQuery
