import EventQuery.Proofs.Aggregate.Extremes
import EventQuery.Proofs.Statement.Steady

namespace EventQuery

/-!
# Results that are kept up to date

Rows enter the window of an aggregation at its new end and leave it at its old end, and the state of
the aggregation is told of each of them once.  For the functions that count rows and those that
choose one of the values, what is read from the state is what the function yields when it is computed
anew from the rows in the window.
-/

namespace AggregateKind

/-- The functions that count rows and those that choose one of the values. -/
def exact : List AggregateKind := [count, min, max, first, last]

/-- Whether a row counts: every whole row does, and a value unless it is null. -/
def counts (input : Option Value) : Bool := !input.any Value.isNull

/-- The values that are not null. -/
def present (inputs : List (Option Value)) : List Value :=
  (inputs.map Value.ofOption).filter fun value => !value.isNull

/-- What a function yields for the values of its argument in order, with none for a whole row. -/
def recount (kind : AggregateKind) (inputs : List (Option Value)) : Value :=
  match kind with
  | count => .int (Int64.ofInt (inputs.countP counts))
  | min => Value.outermost .lt (present inputs)
  | max => Value.outermost .gt (present inputs)
  | first => Value.ofOption inputs.head?.join
  | last => Value.ofOption inputs.getLast?.join
  | _ => .null

variable {input : Option Value} {inputs : List (Option Value)}

theorem present_cons_of_null
    (isNull : (Value.ofOption input).isNull = true) :
    present (input :: inputs) = present inputs := by
  rw [present, List.map_cons, List.filter_cons_of_neg (by simp [isNull]), present]

theorem present_cons_of_value
    (isValue : ¬(Value.ofOption input).isNull = true) :
    present (input :: inputs) = Value.ofOption input :: present inputs := by
  rw [present, List.map_cons, List.filter_cons_of_pos (by simp [isValue]), present]

theorem present_append
    (first second : List (Option Value)) :
    present (first ++ second) = present first ++ present second := by
  rw [present, List.map_append, List.filter_append, present, present]

end AggregateKind

namespace Accumulator

open AggregateKind (counts present)

/-- An accumulator knows of the values in a window what its function needs. -/
inductive Tracks (ofKind : Value → Prop) (inputs : List (Option Value)) :
    AggregateKind → Accumulator → Prop
  | count : Tracks ofKind inputs .count (.count (inputs.countP counts))
  | min {set : ExtremeSet}
      (keeps : set.Keeps ofKind (present inputs)) :
      Tracks ofKind inputs .min (.min set)
  | max {set : ExtremeSet}
      (keeps : set.Keeps ofKind (present inputs)) :
      Tracks ofKind inputs .max (.max set)
  | first : Tracks ofKind inputs .first (.firstHeld (inputs.map Value.ofOption))
  | last : Tracks ofKind inputs .last (.lastHeld (inputs.map Value.ofOption))

namespace Tracks

variable {ofKind : Value → Prop} {kind : AggregateKind} {accumulator : Accumulator}
  {input : Option Value} {inputs : List (Option Value)}

/-- The accumulator of an empty window. -/
theorem empty
    (isExact : kind ∈ AggregateKind.exact) :
    Tracks ofKind [] kind (.empty true kind) := by
  simp only [AggregateKind.exact, List.mem_cons, List.not_mem_nil, or_false] at isExact
  rcases isExact with rfl | rfl | rfl | rfl | rfl
  · exact .count
  · exact .min (ExtremeSet.keeps_empty ofKind)
  · exact .max (ExtremeSet.keeps_empty ofKind)
  · exact .first
  · exact .last

/-- The values that are not null are kept when one more enters. -/
private theorem keeps_enter
    {set : ExtremeSet}
    (linear : ExtremeSet.Linear ofKind)
    (keeps : set.Keeps ofKind (present inputs))
    (isKind : (Value.ofOption input).isNull = false → ofKind (Value.ofOption input)) :
    (if (Value.ofOption input).isNull then set else set.insert (Value.ofOption input)).Keeps ofKind
      (present (inputs ++ [input])) := by
  rw [AggregateKind.present_append]
  split
  next isNull =>
      rw [AggregateKind.present_cons_of_null isNull]
      exact (List.append_nil (present inputs)).symm ▸ keeps
  next isValue =>
      rw [AggregateKind.present_cons_of_value isValue]
      exact keeps.insert linear (isKind (Bool.not_eq_true _ ▸ isValue))

/-- The values that are not null are kept when the oldest one leaves. -/
private theorem keeps_leave
    {set : ExtremeSet}
    (linear : ExtremeSet.Linear ofKind)
    (keeps : set.Keeps ofKind (present (input :: inputs))) :
    (if (Value.ofOption input).isNull then set else set.erase (Value.ofOption input)).Keeps ofKind
      (present inputs) := by
  split
  next isNull => exact AggregateKind.present_cons_of_null isNull ▸ keeps
  next isValue =>
      rw [AggregateKind.present_cons_of_value isValue] at keeps
      exact keeps.erase linear

private theorem counts_eq (input : Option Value) :
    (input.isSome && (Value.ofOption input).isNull) = !counts input := by
  cases input <;> simp [counts, Value.ofOption]

/-- A row that enters is tracked, and is no fault. -/
theorem enter
    (linear : ExtremeSet.Linear ofKind)
    (isKind : (Value.ofOption input).isNull = false → ofKind (Value.ofOption input))
    (tracks : Tracks ofKind inputs kind accumulator) :
    ∃ changed, accumulator.enter input = .ok changed ∧
      Tracks ofKind (inputs ++ [input]) kind changed := by
  cases tracks with
  | count =>
      have counted :
          (if input.isSome && (Value.ofOption input).isNull then (inputs.countP counts : Int)
            else inputs.countP counts + 1) = (inputs ++ [input]).countP counts := by
        rw [counts_eq]
        cases isCounted : counts input <;> simp [List.countP_append, isCounted]
      exact ⟨_, rfl, counted ▸ .count⟩
  | min keeps => exact ⟨_, rfl, .min (keeps_enter linear keeps isKind)⟩
  | max keeps => exact ⟨_, rfl, .max (keeps_enter linear keeps isKind)⟩
  | first =>
      have entered :
          inputs.map Value.ofOption ++ [Value.ofOption input] =
            (inputs ++ [input]).map Value.ofOption := by
        rw [List.map_append, List.map_singleton]
      exact ⟨_, rfl, entered ▸ .first⟩
  | last =>
      have entered :
          inputs.map Value.ofOption ++ [Value.ofOption input] =
            (inputs ++ [input]).map Value.ofOption := by
        rw [List.map_append, List.map_singleton]
      exact ⟨_, rfl, entered ▸ .last⟩

/-- The oldest row is no longer tracked when it leaves, and is no fault. -/
theorem leave
    (linear : ExtremeSet.Linear ofKind)
    (tracks : Tracks ofKind (input :: inputs) kind accumulator) :
    ∃ changed, accumulator.leave input = .ok changed ∧ Tracks ofKind inputs kind changed := by
  cases tracks with
  | count =>
      have counted :
          (if input.isSome && (Value.ofOption input).isNull then
              ((input :: inputs).countP counts : Int)
            else Max.max (((input :: inputs).countP counts : Int) - 1) 0) =
            inputs.countP counts := by
        rw [counts_eq]
        cases isCounted : counts input <;> simp [isCounted]
      exact ⟨_, rfl, counted ▸ .count⟩
  | min keeps => exact ⟨_, rfl, .min (keeps_leave linear keeps)⟩
  | max keeps => exact ⟨_, rfl, .max (keeps_leave linear keeps)⟩
  | first => exact ⟨_, rfl, .first⟩
  | last => exact ⟨_, rfl, .last⟩

/-- The result is what the function yields for the values in the window. -/
theorem value_eq
    (linear : ExtremeSet.Linear ofKind)
    (tracks : Tracks ofKind inputs kind accumulator) :
    accumulator.value = kind.recount inputs := by
  cases tracks with
  | count => rfl
  | min keeps => exact keeps.least_eq linear
  | max keeps => exact keeps.greatest_eq linear
  | first => cases inputs <;> rfl
  | last =>
      rw [value, AggregateKind.recount, List.getLast?_map]
      cases inputs.getLast? <;> rfl

end Tracks

end Accumulator

/-! ## Windows -/

/-- What happens to a window: a row enters at its new end, or the oldest row leaves. -/
inductive WindowTurn where
  | enter (row : Row) (occasion : Occasion)
  | leave (occasion : Occasion)

/-- The rows in a window in order of arrival, with the state that has been told of them. -/
structure AggregateWindow where
  rows : List Row
  state : AggregateState
  /-- The faults that the state has reported. -/
  faults : List Fault

namespace AggregateWindow

/-- The window without rows. -/
def opened (state : AggregateState) : AggregateWindow := ⟨[], state, []⟩

/-- The state is told of a row that enters or leaves; no row leaves an empty window. -/
def after (window : AggregateWindow) : WindowTurn → AggregateWindow
  | .enter row occasion =>
      let (state, fault) := window.state.enter row occasion
      ⟨window.rows ++ [row], state, window.faults ++ fault.toList⟩
  | .leave occasion =>
      match window.rows with
      | [] => window
      | oldest :: rest =>
          let (state, fault) := window.state.leave oldest occasion
          ⟨rest, state, window.faults ++ fault.toList⟩

end AggregateWindow

/-- An expression has one value on a row, null or of a type, whenever it is evaluated. -/
def Node.HasTyped (argument : Node) (type : ValueType) (row : Row) : Prop :=
  ∃ value, type.Includes value ∧ ∀ occasion, argument.evaluate row occasion = .ok value

namespace AggregateState

/-- The values of an argument on rows in order, with none for a whole row. -/
def inputs (argument : Option Node) (rows : List Row) : List (Option Value) :=
  rows.map fun row => (input argument row []).toOption.join

variable {argument : Option Node} {type : ValueType} {row : Row} {rows : List Row}

/-- The input of a row is the same on every occasion. -/
theorem input_eq
    (typed : ∀ node ∈ argument, node.HasTyped type row)
    (occasion : Occasion) :
    input argument row occasion = .ok (input argument row []).toOption.join := by
  cases argument with
  | none => rfl
  | some node =>
      obtain ⟨value, _, evaluates⟩ := typed node rfl
      rw [input, input, evaluates, evaluates]
      rfl

/-- The input of a row is of the type of the argument. -/
theorem includes_input
    (typed : ∀ node ∈ argument, node.HasTyped type row) :
    type.Includes (Value.ofOption (input argument row []).toOption.join) := by
  cases argument with
  | none => exact ValueType.includes_null type
  | some node =>
      obtain ⟨value, included, evaluates⟩ := typed node rfl
      rw [input, evaluates]
      exact included

end AggregateState

namespace AggregateWindow

open AggregateState (inputs)

/-- The values that conform to a type, null apart. -/
def OfType (type : ValueType) (value : Value) : Prop := type.Includes value ∧ value.isNull = false

/-- The state of a window tracks the values of an argument on the rows, and no turn was a fault. -/
structure UpToDate (kind : AggregateKind) (argument : Option Node) (type : ValueType)
    (window : AggregateWindow) : Prop where
  tracks : ∃ held, window.state = .accumulator argument held ∧
    held.Tracks (OfType type) (inputs argument window.rows) kind
  typed : ∀ row ∈ window.rows, ∀ node ∈ argument, node.HasTyped type row
  faultless : window.faults = []

variable {kind : AggregateKind} {argument : Option Node} {type : ValueType}
  {window : AggregateWindow}

/-- A row that enters is tracked. -/
theorem UpToDate.enter
    (isLinear : type ∈ ValueType.linear)
    (upToDate : UpToDate kind argument type window)
    {row : Row}
    (typed : ∀ node ∈ argument, node.HasTyped type row)
    (occasion : Occasion) :
    UpToDate kind argument type (window.after (.enter row occasion)) := by
  obtain ⟨⟨held, isState, tracks⟩, typedRows, faultless⟩ := upToDate
  obtain ⟨changed, entered, tracksChanged⟩ :=
    tracks.enter (ExtremeSet.linear_includes isLinear)
      fun notNull => ⟨AggregateState.includes_input typed, notNull⟩
  have isEntered : window.state.enter row occasion = (.accumulator argument changed, none) := by
    rw [isState, AggregateState.enter, AggregateState.input_eq typed occasion]
    simp only [bind, Except.bind, entered]
    rfl
  rw [after, isEntered]
  refine ⟨⟨changed, rfl, ?_⟩, ?_, ?_⟩
  · rw [inputs, List.map_append]
    exact tracksChanged
  · exact List.forall_mem_append.mpr ⟨typedRows, List.forall_mem_singleton.mpr typed⟩
  · exact (List.append_nil window.faults).trans faultless

/-- The oldest row is no longer tracked when it leaves. -/
theorem UpToDate.leave
    (isLinear : type ∈ ValueType.linear)
    (upToDate : UpToDate kind argument type window)
    (occasion : Occasion) :
    UpToDate kind argument type (window.after (.leave occasion)) := by
  obtain ⟨⟨held, isState, tracks⟩, typedRows, faultless⟩ := upToDate
  cases isRows : window.rows with
  | nil =>
      have stays : window.after (.leave occasion) = window := by rw [after, isRows]
      exact stays.symm ▸ ⟨⟨held, isState, tracks⟩, typedRows, faultless⟩
  | cons oldest rest =>
      rw [isRows, List.forall_mem_cons] at typedRows
      rw [isRows, inputs, List.map_cons] at tracks
      obtain ⟨changed, left, tracksChanged⟩ :=
        tracks.leave (ExtremeSet.linear_includes isLinear)
      have isLeft : window.state.leave oldest occasion = (.accumulator argument changed, none) := by
        rw [isState, AggregateState.leave, AggregateState.input_eq typedRows.1 occasion]
        simp only [bind, Except.bind, left]
        rfl
      have turned : window.after (.leave occasion) =
          ⟨rest, .accumulator argument changed, window.faults ++ []⟩ := by
        rw [after, isRows]
        simp only [isLeft, Option.toList_none]
      rw [turned]
      exact ⟨⟨changed, rfl, tracksChanged⟩, typedRows.2,
        (List.append_nil window.faults).trans faultless⟩

/-- A window stays up to date through all turns. -/
theorem UpToDate.turns
    (isLinear : type ∈ ValueType.linear)
    (upToDate : UpToDate kind argument type window)
    (turns : List WindowTurn)
    (typed : ∀ row occasion, .enter row occasion ∈ turns →
      ∀ node ∈ argument, node.HasTyped type row) :
    UpToDate kind argument type (turns.foldl after window) := by
  induction turns generalizing window with
  | nil => exact upToDate
  | cons turn rest inductionHypothesis =>
      have typedRest : ∀ row occasion, .enter row occasion ∈ rest →
          ∀ node ∈ argument, node.HasTyped type row :=
        fun row occasion member => typed row occasion (List.mem_cons_of_mem _ member)
      cases turn with
      | enter row occasion =>
          have typedRow := typed row occasion List.mem_cons_self
          exact inductionHypothesis (upToDate.enter isLinear typedRow occasion) typedRest
      | leave occasion => exact inductionHypothesis (upToDate.leave isLinear occasion) typedRest

end AggregateWindow

/-! ## Handlers -/

section Handlers

variable {call : AggregateCall} {handler : AggregateHandler} {kind : AggregateKind}

/-- The name of a function over one argument finds that function. -/
theorem AggregateCatalog.handle_standard
    (isKind : AggregateKind.ofName? call.function = some kind) :
    standard.handle call = kind.handle call := by
  have isName : kind.name = call.function.toLower := by
    have found := List.find?_some isKind
    exact beq_iff_eq.mp found
  have notCycles : call.function.toLower ∉ AggregateSupplier.cycles.names.map String.toLower := by
    rw [← isName]
    cases kind <;> decide +kernel
  have isAccumulator :
      call.function.toLower ∈ AggregateSupplier.accumulators.names.map String.toLower := by
    rw [← isName]
    cases kind <;> decide +kernel
  rw [handle, standard, find?_add, if_neg notCycles, find?_add, if_pos isAccumulator]
  simp only [AggregateSupplier.accumulators, isKind]

/-- A checked call over one argument has the handler of its function over its first argument. -/
theorem AggregateKind.eq_of_handle
    (isHandler : kind.handle call = .ok handler) :
    ∃ returns, handler = kind.handler call call.arguments.head? returns := by
  rw [handle] at isHandler
  split at isHandler
  next rows =>
      cases isHandler
      rw [List.isEmpty_iff.mp rows.2.2]
      exact ⟨.int, rfl⟩
  next =>
      obtain ⟨argument, isArgument, outcome⟩ := bind_eq_ok_iff.mp isHandler
      have only : call.arguments = [argument] := by
        rw [AggregateCall.onlyArgument] at isArgument
        split at isArgument
        next => cases isArgument
        next =>
            split at isArgument
            next same =>
                cases isArgument
                exact same
            next => cases isArgument
      split at outcome
      next returns _ =>
          cases outcome
          rw [only]
          exact ⟨returns, rfl⟩
      next => cases outcome

end Handlers

namespace AggregateWindow

open AggregateState (inputs)

/--
What is read from the state of a window is what the function yields for the rows in the window, and
no turn is a fault.
-/
theorem reads_recount
    {call : AggregateCall}
    {handler : AggregateHandler}
    {kind : AggregateKind}
    (isKind : AggregateKind.ofName? call.function = some kind)
    (isExact : kind ∈ AggregateKind.exact)
    (isHandler : AggregateCatalog.standard.handle call = .ok handler)
    (windowed : call.windowed = true)
    (isLinear : ∀ argument ∈ call.arguments, argument.type ∈ ValueType.linear)
    (turns : List WindowTurn)
    (typed : ∀ row occasion, .enter row occasion ∈ turns →
      ∀ argument ∈ call.arguments, argument.HasTyped argument.type row)
    (occasion : Occasion)
    (statement : StatementId)
    (group : GroupKey) :
    ∃ state, handler.create occasion statement group = .ok state ∧
      (turns.foldl after (opened state)).faults = [] ∧
      handler.read (turns.foldl after (opened state)).state =
        kind.recount (inputs call.arguments.head? (turns.foldl after (opened state)).rows) := by
  obtain ⟨returns, rfl⟩ :=
    AggregateKind.eq_of_handle (AggregateCatalog.handle_standard isKind ▸ isHandler)
  refine ⟨_, rfl, ?_⟩
  obtain ⟨type, isTypeLinear, typedArgument⟩ : ∃ type ∈ ValueType.linear,
      ∀ row occasion, .enter row occasion ∈ turns →
        ∀ node ∈ call.arguments.head?, node.HasTyped type row := by
    cases isArguments : call.arguments with
    | nil => exact ⟨.int, List.mem_cons_self, nofun⟩
    | cons argument rest =>
        have given : argument ∈ call.arguments := isArguments ▸ List.mem_cons_self
        refine ⟨argument.type, isLinear argument given, fun row occasion member node same => ?_⟩
        cases same
        exact typed row occasion member argument given
  have atOpening : UpToDate kind call.arguments.head? type
      (opened (.accumulator call.arguments.head? (.empty true kind))) :=
    ⟨⟨_, rfl, .empty isExact⟩, nofun, rfl⟩
  obtain ⟨⟨held, isState, tracks⟩, _, faultless⟩ :=
    atOpening.turns isTypeLinear turns typedArgument
  rw [windowed]
  refine ⟨faultless, ?_⟩
  rw [isState]
  exact tracks.value_eq (ExtremeSet.linear_includes isTypeLinear)

/-- The least integer of a window, as a call. -/
def leastNumber : AggregateCall := ⟨"MIN", [.slot 0 .int], false, true, 0⟩

/-- Five enters twice and three in between, then null; the first five leaves, and the three. -/
def turnsOfNumbers : List WindowTurn :=
  [.enter [.int 5] [], .enter [.int 3] [], .enter [.int 5] [], .enter [.null] [], .leave [],
    .leave []]

/-- When the three has left as well as the first five, the other five is the least number. -/
theorem reads_recount_leastNumber :
    (AggregateKind.min.handler leastNumber (some (.slot 0 .int)) .int).read
        (turnsOfNumbers.foldl after
          (opened (.accumulator (some (.slot 0 .int)) (.min .empty)))).state =
      .int 5 := by
  have isHandler : AggregateCatalog.standard.handle leastNumber =
      .ok (AggregateKind.min.handler leastNumber (some (.slot 0 .int)) .int) := by
    rw [AggregateCatalog.handle_standard (by decide +kernel : _ = some AggregateKind.min)]
    rfl
  have typed : ∀ row occasion, .enter row occasion ∈ turnsOfNumbers →
      ∀ argument ∈ leastNumber.arguments, argument.HasTyped argument.type row := by
    intro row occasion member argument isArgument
    simp only [turnsOfNumbers, leastNumber, List.mem_cons, List.not_mem_nil, or_false,
      WindowTurn.enter.injEq, reduceCtorEq] at member isArgument
    rcases isArgument with rfl
    rcases member with ⟨rfl, -⟩ | ⟨rfl, -⟩ | ⟨rfl, -⟩ | ⟨rfl, -⟩
    · exact ⟨.int 5, trivial, fun _ => rfl⟩
    · exact ⟨.int 3, trivial, fun _ => rfl⟩
    · exact ⟨.int 5, trivial, fun _ => rfl⟩
    · exact ⟨.null, trivial, fun _ => rfl⟩
  obtain ⟨state, isState, _, reads⟩ :=
    reads_recount (by decide +kernel : _ = some AggregateKind.min) (by decide) isHandler rfl
      (by decide) turnsOfNumbers typed [] 0 default
  cases isState
  exact reads.trans rfl

end AggregateWindow

end EventQuery
