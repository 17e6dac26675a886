import EventQuery.Pattern.Step
import EventQuery.Proofs.Pattern.RowLaw

namespace EventQuery

/-!
# Slots of rows

What operators do to rows, said slot by slot: putting an event at a slot, collecting rounds and
merging operands each change few slots, and put there what they were given.
-/

namespace Value

mutual

/-- The events in a value: the event that it is, or those in the sequence that it is. -/
def events : Value → List Event
  | .event entity => [entity]
  | .array items => eventsOfAll items
  | _ => []

/-- The events in several values. -/
def eventsOfAll : List Value → List Event
  | [] => []
  | first :: rest => events first ++ eventsOfAll rest

end

@[simp] theorem events_null : events .null = [] := by
  simp [events]

@[simp] theorem events_event
    (event : Event) :
    events (.event event) = [event] := by
  simp [events]

@[simp] theorem events_array_nil : events (.array []) = [] := by
  simp [events, eventsOfAll]

theorem mem_events_array_append
    {items : List Value}
    {last : Value}
    {event : Event} :
    event ∈ events (.array (items ++ [last])) ↔
      event ∈ events (.array items) ∨ event ∈ events last := by
  simp only [events]
  induction items with
  | nil =>
      simp [eventsOfAll]
  | cons first rest inductionHypothesis =>
      rw [List.cons_append, eventsOfAll, eventsOfAll, List.mem_append, List.mem_append,
        inductionHypothesis, or_assoc]

theorem eq_null_of_isNull
    {value : Value}
    (isNull : value.isNull = true) :
    value = .null := by
  cases value <;> first | rfl | cases isNull

end Value

namespace Row

/-- A row has what was put at a slot, or what it had. -/
theorem get_set
    (row : Row)
    (slot other : Nat)
    (value : Value) :
    Row.get (row.set slot value) other = Row.get row other ∨
      (slot = other ∧ Row.get (row.set slot value) other = value) := by
  simp only [Row.get, List.getD_eq_getElem?_getD]
  by_cases same : slot = other
  · subst same
    by_cases inRange : slot < row.length
    · exact .inr ⟨rfl, by simp [inRange]⟩
    · exact .inl (by rw [List.set_eq_of_length_le (by omega)])
  · exact .inl (by rw [List.getElem?_set_ne same])

/-- Putting a value at a slot leaves the others. -/
theorem get_set_of_ne
    (row : Row)
    {slot other : Nat}
    (different : slot ≠ other)
    (value : Value) :
    Row.get (row.set slot value) other = Row.get row other :=
  (get_set row slot other value).resolve_right fun same => different same.1

@[simp] theorem get_replicate_null
    (width slot : Nat) :
    Row.get (List.replicate width .null) slot = .null := by
  simp only [Row.get, List.getD_eq_getElem?_getD, List.getElem?_replicate]
  split <;> rfl

end Row

section Slots

variable {slots : List Nat} {slot : Nat}

/-- A slot at which one value is put, or another row's slot is left, has that value or is left. -/
private theorem get_foldl_set
    (value : Value)
    (slots : List Nat)
    (row : Row)
    (slot : Nat) :
    Row.get (slots.foldl (fun row slot => row.set slot value) row) slot = Row.get row slot ∨
      (slot ∈ slots ∧
        Row.get (slots.foldl (fun row slot => row.set slot value) row) slot = value) := by
  induction slots generalizing row with
  | nil =>
      exact .inl rfl
  | cons first rest inductionHypothesis =>
      rw [List.foldl_cons]
      rcases inductionHypothesis (row.set first value) with left | ⟨member, isValue⟩
      · rcases Row.get_set row first slot value with kept | ⟨same, isValue⟩
        · exact .inl (left.trans kept)
        · exact .inr ⟨by simp [same], left.trans isValue⟩
      · exact .inr ⟨by simp [member], isValue⟩

/-- Empty sequences stand at the given slots only. -/
theorem get_withEmptySequences
    (row : Row)
    (slots : List Nat)
    (slot : Nat) :
    Row.get (Progress.withEmptySequences row slots) slot = Row.get row slot ∨
      (slot ∈ slots ∧ Row.get (Progress.withEmptySequences row slots) slot = .array []) :=
  get_foldl_set (.array []) slots row slot

/-- A round starts without bindings at the inner slots. -/
theorem get_roundBindings
    (row : Row)
    (slots : List Nat)
    (slot : Nat) :
    Row.get (Engine.roundBindings row slots) slot = Row.get row slot ∨
      (slot ∈ slots ∧ Row.get (Engine.roundBindings row slots) slot = .null) :=
  get_foldl_set .null slots row slot

/-- A round starts without a binding at each inner slot. -/
theorem get_roundBindings_of_mem
    (row : Row)
    (member : slot ∈ slots) :
    Row.get (Engine.roundBindings row slots) slot = .null := by
  have outOfRange : ∀ {kept : Row}, kept.length ≤ slot → Row.get kept slot = .null := by
    intro kept beyond
    simp [Row.get, List.getD_eq_getElem?_getD, beyond]
  rw [Engine.roundBindings]
  induction slots generalizing row with
  | nil =>
      cases member
  | cons first rest inductionHypothesis =>
      rw [List.foldl_cons]
      by_cases inRest : slot ∈ rest
      · exact inductionHypothesis _ inRest
      · have isFirst : slot = first := (List.mem_cons.mp member).resolve_right inRest
        subst isFirst
        rw [(get_foldl_set .null rest _ slot).resolve_right fun inside => inRest inside.1]
        by_cases inRange : slot < row.length
        · simp [Row.get, inRange]
        · exact outOfRange (by simpa using Nat.le_of_not_lt inRange)

/-- The value at a slot of a round is put behind the sequence collected there. -/
def collectAt (bindings collected : Row) (slot : Nat) : Row :=
  match Row.get collected slot with
  | .array items => collected.set slot (.array (items ++ [Row.get bindings slot]))
  | _ => collected

/-- A round is collected slot by slot. -/
theorem collect_eq_foldl
    (collected bindings : Row)
    (slots : List Nat) :
    Engine.collect collected bindings slots = slots.foldl (collectAt bindings) collected :=
  rfl

/-- What holds of the value at a slot, and still holds when the value of a round is put behind it,
holds after the round is collected. -/
theorem get_collect_of_append
    {holds : Value → Prop}
    {bindings : Row}
    (append : ∀ items,
      holds (.array items) → holds (.array (items ++ [Row.get bindings slot])))
    {collected : Row}
    (before : holds (Row.get collected slot)) :
    holds (Row.get (Engine.collect collected bindings slots) slot) := by
  rw [collect_eq_foldl]
  induction slots generalizing collected with
  | nil =>
      exact before
  | cons first rest inductionHypothesis =>
      rw [List.foldl_cons]
      refine inductionHypothesis ?_
      rw [collectAt]
      split
      next items isArray =>
          rcases Row.get_set collected first slot (.array (items ++ [Row.get bindings first])) with
            kept | ⟨same, isValue⟩
          · rw [kept]
            exact before
          · subst same
            rw [isValue]
            exact append items (isArray ▸ before)
      next => exact before

private theorem events_collectAt
    (collected bindings : Row)
    (first slot : Nat) :
    Row.get (collectAt bindings collected first) slot = Row.get collected slot ∨
      (slot = first ∧
        ∀ event ∈ (Row.get (collectAt bindings collected first) slot).events,
          event ∈ (Row.get collected slot).events ∨
            event ∈ (Row.get bindings slot).events) := by
  unfold collectAt
  split
  next items isArray =>
      rcases Row.get_set collected first slot (.array (items ++ [Row.get bindings first])) with
        kept | ⟨same, isValue⟩
      · exact .inl kept
      · subst same
        refine .inr ⟨rfl, fun event member => ?_⟩
        rw [isValue, Value.mem_events_array_append] at member
        rw [isArray]
        exact member
  next => exact .inl rfl

theorem events_collect
    (collected bindings : Row)
    (slots : List Nat)
    (slot : Nat) :
    Row.get (Engine.collect collected bindings slots) slot = Row.get collected slot ∨
      (slot ∈ slots ∧
        ∀ event ∈ (Row.get (Engine.collect collected bindings slots) slot).events,
          event ∈ (Row.get collected slot).events ∨
            event ∈ (Row.get bindings slot).events) := by
  rw [collect_eq_foldl]
  induction slots generalizing collected with
  | nil =>
      exact .inl rfl
  | cons first rest inductionHypothesis =>
      rw [List.foldl_cons]
      rcases inductionHypothesis (collectAt bindings collected first) with left | ⟨member, among⟩
      · rw [left]
        rcases events_collectAt collected bindings first slot with kept | ⟨same, among⟩
        · exact .inl kept
        · exact .inr ⟨by simp [same], among⟩
      · refine .inr ⟨by simp [member], fun event inEvents => ?_⟩
        rcases among event inEvents with inWritten | inBindings
        · rcases events_collectAt collected bindings first slot with kept | ⟨_, amongOne⟩
          · exact .inl (kept ▸ inWritten)
          · exact amongOne event inWritten
        · exact .inr inBindings

private theorem get_mergeOne
    (merged bindings : Row)
    (slot : Nat) :
    let result := merged.mapIdx fun slot value =>
      if value.isNull then Row.get bindings slot else value
    Row.get result slot = Row.get merged slot ∨
      (Row.get merged slot = .null ∧ Row.get result slot = Row.get bindings slot) := by
  simp only [Row.get, List.getD_eq_getElem?_getD, List.getElem?_mapIdx]
  cases atSlot : merged[slot]? with
  | none =>
      exact .inl rfl
  | some value =>
      simp only [Option.map_some, Option.getD_some]
      split
      next isNull => exact .inr ⟨Value.eq_null_of_isNull isNull, rfl⟩
      next => exact .inl rfl

/-- A merged slot is that of the start, or the one of an operand where the start binds nothing. -/
theorem get_merge
    (start : Row)
    (operands : List Conjunct)
    (slot : Nat) :
    Row.get (Conjunct.merge start operands) slot = Row.get start slot ∨
      (Row.get start slot = .null ∧
        ∃ operand ∈ operands, ∃ found, operand.bindings = some found ∧
          Row.get (Conjunct.merge start operands) slot = Row.get found slot) := by
  have mergedRows : ∀ (rows : List Row) (merged : Row),
      let result := rows.foldl
        (fun merged bindings =>
          merged.mapIdx fun slot value => if value.isNull then Row.get bindings slot else value)
        merged
      Row.get result slot = Row.get merged slot ∨
        (Row.get merged slot = .null ∧ ∃ row ∈ rows, Row.get result slot = Row.get row slot) := by
    intro rows
    induction rows with
    | nil =>
        exact fun _ => .inl rfl
    | cons first rest inductionHypothesis =>
        intro merged
        have step := get_mergeOne merged first slot
        rw [List.foldl_cons]
        rcases inductionHypothesis _ with left | ⟨wasNull, row, member, isRow⟩
        · rcases step with kept | ⟨wasNull, isFirst⟩
          · exact .inl (left.trans kept)
          · exact .inr ⟨wasNull, first, by simp, left.trans isFirst⟩
        · rcases step with kept | ⟨wasNullBefore, _⟩
          · exact .inr ⟨kept.symm.trans wasNull, row, by simp [member], isRow⟩
          · exact .inr ⟨wasNullBefore, row, by simp [member], isRow⟩
  rcases mergedRows (operands.filterMap Conjunct.bindings) start with
    kept | ⟨wasNull, row, member, isRow⟩
  · exact .inl kept
  · obtain ⟨operand, inOperands, isBound⟩ := List.mem_filterMap.mp member
    exact .inr ⟨wasNull, operand, inOperands, row, isBound, isRow⟩

end Slots

end EventQuery
