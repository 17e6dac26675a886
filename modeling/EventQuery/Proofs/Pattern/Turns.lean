import EventQuery.Proofs.Pattern.Lineage
import EventQuery.Proofs.Pattern.RowSlots
import EventQuery.Proofs.Pattern.Running

namespace EventQuery

/-!
# The turn of a row

The events that a row binds on the left of a sequence were shown before a turn, and those on the
right from the turn on.  The place of the sequence in the pattern says which slots belong to which
side.
-/

/-- An event is shown at a moment: it is the one of the call of that number. -/
def Shown (calls : List Engine.Call) (moment : Nat) (event : Event) : Prop :=
  ∃ place, moment = place + 1 ∧ calls[place]? = some (.event event)

/-- All events in a value were shown in a range of moments. -/
def ShownIn (calls : List Engine.Call) (first last : Nat) (value : Value) : Prop :=
  ∀ event ∈ value.events, ∃ moment, first ≤ moment ∧ moment < last ∧ Shown calls moment event

namespace CompiledPattern

/-- A filter below a node binds its event at a slot. -/
def BindsBelow (compiled : CompiledPattern) (top slot : Nat) : Prop :=
  ∃ filter, compiled.Below top filter ∧ compiled.Binds filter slot

/-- A sequence that is not inside a repetition, in a pattern whose slots have one filter each. -/
structure SinglePlace (compiled : CompiledPattern) (sequence left right : Nat) : Prop where
  table : compiled.Sound
  isSequence : compiled.nodes[sequence]? = some (.sequence left right)
  notRepeated :
    ∀ {number child least : Nat} {most : Option Nat} {innerSlots : List Nat},
      compiled.nodes[number]? = some (.repetition child least most innerSlots) →
        ¬compiled.Below number sequence
  oneFilter :
    ∀ {first second slot : Nat},
      compiled.Binds first slot → compiled.Binds second slot → first = second
  innerSlots :
    ∀ {number child least slot : Nat} {most : Option Nat} {innerSlots : List Nat},
      compiled.nodes[number]? = some (.repetition child least most innerSlots) →
        slot ∈ innerSlots → compiled.BindsBelow number slot

section Place

variable {compiled : CompiledPattern} {sequence left right number child side slot : Nat}

theorem SinglePlace.isLeft
    (place : compiled.SinglePlace sequence left right) :
    compiled.IsOperand sequence left :=
  ⟨_, place.isSequence, by simp [PatternNode.children]⟩

theorem SinglePlace.isRight
    (place : compiled.SinglePlace sequence left right) :
    compiled.IsOperand sequence right :=
  ⟨_, place.isSequence, by simp [PatternNode.children]⟩

theorem SinglePlace.left_ne_right
    (place : compiled.SinglePlace sequence left right) :
    left ≠ right := by
  have distinct := place.table.operandsNodup place.isSequence
  simpa [PatternNode.children] using distinct

/-- Nothing is on both sides of a sequence. -/
theorem SinglePlace.apart
    (place : compiled.SinglePlace sequence left right)
    (onLeft : compiled.Below left number) :
    ¬compiled.Below right number :=
  place.isLeft.apart place.table place.isRight place.left_ne_right onLeft

/-- A filter that binds a slot of a side is on that side. -/
theorem SinglePlace.below_of_binds
    (place : compiled.SinglePlace sequence left right)
    (binds : compiled.Binds number slot)
    (ofSide : compiled.BindsBelow side slot) :
    compiled.Below side number := by
  obtain ⟨filter, below, filterBinds⟩ := ofSide
  rw [place.oneFilter binds filterBinds]
  exact below

/-- A node on a side of a sequence is not above it. -/
theorem SinglePlace.not_above
    (place : compiled.SinglePlace sequence left right)
    (isSide : compiled.IsOperand sequence side)
    (onSide : compiled.Below side number) :
    ¬compiled.Below number sequence := by
  intro above
  exact isSide.not_below place.table (onSide.trans above)

/-- An operand is on a side only if its operator is, or is the sequence. -/
theorem SinglePlace.operand_off_side
    (place : compiled.SinglePlace sequence left right)
    (isSide : compiled.IsOperand sequence side)
    (isOperand : compiled.IsOperand number child)
    (notAbove : ¬compiled.Below number sequence)
    (offSide : ¬compiled.Below side number) :
    ¬compiled.Below side child := by
  intro onSide
  rcases onSide.eq_or_below place.table isOperand with same | above
  · subst same
    exact notAbove (place.table.operatorUnique isOperand isSide ▸ .refl)
  · exact offSide above

/-- An operand is above the sequence only if its operator is. -/
theorem SinglePlace.operand_not_above
    (isOperand : compiled.IsOperand number child)
    (notAbove : ¬compiled.Below number sequence) :
    ¬compiled.Below child sequence :=
  fun above => notAbove (isOperand.below.trans above)

/-- The operand beside one that is above the sequence is neither above nor in it. -/
theorem SinglePlace.beside
    (place : compiled.SinglePlace sequence left right)
    {other : Nat}
    (isOperand : compiled.IsOperand number child)
    (isOther : compiled.IsOperand number other)
    (different : child ≠ other)
    (above : compiled.Below child sequence) :
    ¬compiled.Below other sequence ∧
      ∀ side, compiled.IsOperand sequence side → ¬compiled.Below side other := by
  refine ⟨isOperand.apart place.table isOther different above, fun side isSide onSide => ?_⟩
  have below := above.trans (isSide.below.trans onSide)
  exact isOperand.apart place.table isOther different below .refl

/-- A repetition on no side of a sequence does not collect at the slots of that side. -/
theorem SinglePlace.not_innerSlot
    (place : compiled.SinglePlace sequence left right)
    {least : Nat}
    {most : Option Nat}
    {innerSlots : List Nat}
    (atNumber : compiled.nodes[number]? = some (.repetition child least most innerSlots))
    (isSide : compiled.IsOperand sequence side)
    (offSide : ¬compiled.Below side number)
    (ofSide : compiled.BindsBelow side slot) :
    slot ∉ innerSlots := by
  intro isInner
  obtain ⟨filter, below, binds⟩ := place.innerSlots atNumber isInner
  have onSide := place.below_of_binds binds ofSide
  rcases onSide.total place.table below with sideAbove | numberAbove
  · exact offSide sideAbove
  · rcases numberAbove.eq_or_below place.table isSide with same | above
    · exact offSide (same ▸ .refl)
    · exact place.notRepeated atNumber above

end Place

end CompiledPattern

open CompiledPattern

section Shown

variable {calls : List Engine.Call}

theorem ShownIn.mono
    {first earlier last later : Nat}
    {value : Value}
    (shown : ShownIn calls first last value)
    (starts : earlier ≤ first)
    (ends : last ≤ later) :
    ShownIn calls earlier later value := by
  intro event member
  obtain ⟨moment, lower, upper, isShown⟩ := shown event member
  exact ⟨moment, Nat.le_trans starts lower, Nat.lt_of_lt_of_le upper ends, isShown⟩

theorem shownIn_null
    (calls : List Engine.Call)
    (first last : Nat) :
    ShownIn calls first last .null := by
  intro event member
  simp at member

/-- The left events of a row were shown before a turn, and the right ones from the turn on. -/
structure Turned
    (compiled : CompiledPattern)
    (left right : Nat)
    (calls : List Engine.Call)
    (turn now : Nat)
    (row : Row) : Prop where
  onLeft : ∀ {slot : Nat}, compiled.BindsBelow left slot → ShownIn calls 0 turn (row.get slot)
  onRight : ∀ {slot : Nat}, compiled.BindsBelow right slot → ShownIn calls turn now (row.get slot)

/-- A row has a turn that has come. -/
def Split
    (compiled : CompiledPattern)
    (left right : Nat)
    (calls : List Engine.Call)
    (now : Nat)
    (row : Row) : Prop :=
  ∃ turn, turn ≤ now ∧ Turned compiled left right calls turn now row

/-- Two rows have the same values at the slots of a side. -/
def Agree (compiled : CompiledPattern) (side : Nat) (first second : Row) : Prop :=
  ∀ slot, compiled.BindsBelow side slot → second.get slot = first.get slot

/-- A row binds nothing at the slots of a side. -/
def Unbound (compiled : CompiledPattern) (side : Nat) (row : Row) : Prop :=
  ∀ slot, compiled.BindsBelow side slot → row.get slot = .null

variable {compiled : CompiledPattern} {left right side now later : Nat} {row found : Row}

theorem Split.mono
    (split : Split compiled left right calls now row)
    (order : now ≤ later) :
    Split compiled left right calls later row := by
  obtain ⟨turn, come, turned⟩ := split
  exact ⟨turn, Nat.le_trans come order, turned.onLeft,
    fun ofRight => (turned.onRight ofRight).mono (Nat.le_refl _) order⟩

/-- What is bound on neither side has a turn. -/
theorem split_of_unbound
    (now : Nat)
    (unboundLeft : Unbound compiled left row)
    (unboundRight : Unbound compiled right row) :
    Split compiled left right calls now row := by
  refine ⟨now, Nat.le_refl _, fun {slot} ofLeft => ?_, fun {slot} ofRight => ?_⟩
  · rw [unboundLeft slot ofLeft]
    exact shownIn_null _ _ _
  · rw [unboundRight slot ofRight]
    exact shownIn_null _ _ _

/-- A row that binds on neither side more than another has a turn when the other has. -/
theorem Split.of_events_subset
    (split : Split compiled left right calls now row)
    (subset :
      ∀ slot, ∀ event ∈ (found.get slot).events, event ∈ (row.get slot).events) :
    Split compiled left right calls now found := by
  obtain ⟨turn, come, turned⟩ := split
  exact ⟨turn, come, fun ofLeft event member => turned.onLeft ofLeft event (subset _ event member),
    fun ofRight event member => turned.onRight ofRight event (subset _ event member)⟩

/-- Before its right side a row may take its turn now. -/
theorem Split.turnNow
    (split : Split compiled left right calls now row)
    (unbound : Unbound compiled right row) :
    Turned compiled left right calls now now row := by
  obtain ⟨turn, come, turned⟩ := split
  refine ⟨fun ofLeft => (turned.onLeft ofLeft).mono (Nat.le_refl _) come, fun {slot} ofRight => ?_⟩
  rw [unbound slot ofRight]
  exact shownIn_null _ _ _

/-- Rows that agree on the left have a common turn: the first one among theirs. -/
theorem exists_commonTurn
    (split : Split compiled left right calls now row)
    (rows : List Row)
    (splits : ∀ other ∈ rows, Split compiled left right calls now other)
    (agree : ∀ other ∈ rows, Agree compiled left row other) :
    ∃ turn, turn ≤ now ∧ Turned compiled left right calls turn now row ∧
      ∀ other ∈ rows, Turned compiled left right calls turn now other := by
  induction rows with
  | nil =>
      obtain ⟨turn, come, turned⟩ := split
      exact ⟨turn, come, turned, by simp⟩
  | cons first rest inductionHypothesis =>
      obtain ⟨turn, come, turned, restTurned⟩ :=
        inductionHypothesis (fun other member => splits other (List.mem_cons_of_mem _ member))
          fun other member => agree other (List.mem_cons_of_mem _ member)
      obtain ⟨own, ownCome, ownTurned⟩ := splits first (by simp)
      have firstAgrees := agree first (by simp)
      have leftFrom : ∀ {other : Row} {slot : Nat}, Agree compiled left row other →
          compiled.BindsBelow left slot → ShownIn calls 0 (min turn own) (other.get slot) := by
        intro other slot agrees ofLeft
        rw [agrees slot ofLeft]
        rcases Nat.le_total turn own with isLess | isLess
        · rw [Nat.min_eq_left isLess]
          exact turned.onLeft ofLeft
        · rw [Nat.min_eq_right isLess, ← firstAgrees slot ofLeft]
          exact ownTurned.onLeft ofLeft
      refine ⟨min turn own, Nat.le_trans (Nat.min_le_left _ _) come, ⟨?_, ?_⟩, ?_⟩
      · exact fun ofLeft => leftFrom (fun _ _ => rfl) ofLeft
      · exact fun ofRight =>
          (turned.onRight ofRight).mono (Nat.min_le_left _ _) (Nat.le_refl _)
      · intro other member
        refine ⟨fun ofLeft => leftFrom (agree other member) ofLeft, fun ofRight => ?_⟩
        rcases List.mem_cons.mp member with isFirst | inRest
        · rw [isFirst]
          exact (ownTurned.onRight ofRight).mono (Nat.min_le_right _ _) (Nat.le_refl _)
        · exact ((restTurned other inRest).onRight ofRight).mono (Nat.min_le_left _ _)
            (Nat.le_refl _)

end Shown

end EventQuery
