import EventQuery.Proofs.Pattern.Enclosing
import EventQuery.Proofs.Pattern.Turns
import EventQuery.Proofs.Pattern.WellFormed

namespace EventQuery

/-!
# The order of a sequence

A match of a sequence takes its left events from earlier calls than its right events, whatever
stands around the sequence and in it.  The row law behind this fact keeps, with every row, a turn:
the events on the left were shown before the turn, and those on the right from the turn on.  The
turn is the moment at which the right operand was started.
-/

open CompiledPattern

section Law

variable {compiled : CompiledPattern} {sequence left right : Nat} {calls : List Engine.Call}

/-- With what a node may start: above the sequence and on its left nothing on its right is bound. -/
structure PrecedenceStart
    (compiled : CompiledPattern)
    (sequence left right : Nat)
    (calls : List Engine.Call)
    (now number : Nat)
    (row : Row) : Prop where
  split : Split compiled left right calls now row
  above :
    compiled.Below number sequence →
      ∀ side, compiled.IsOperand sequence side → Unbound compiled side row
  onLeft : compiled.Below left number → Unbound compiled right row

/-- What a node may report: it binds on a side only when it is above the sequence or on the side. -/
structure PrecedenceYield
    (compiled : CompiledPattern)
    (sequence left right : Nat)
    (calls : List Engine.Call)
    (now number : Nat)
    (row found : Row) : Prop where
  split : Split compiled left right calls now found
  agree :
    ¬compiled.Below number sequence →
      ∀ side, compiled.IsOperand sequence side → ¬compiled.Below side number →
        Agree compiled side row found

variable {now number child : Nat} {node : PatternNode} {row found middle : Row}

/-- An operand that starts with the bindings of its operator may start with them. -/
theorem PrecedenceStart.operand
    (place : compiled.SinglePlace sequence left right)
    (starts : PrecedenceStart compiled sequence left right calls now number row)
    (isOperand : compiled.IsOperand number child) :
    PrecedenceStart compiled sequence left right calls now child row where
  split := starts.split
  above := fun above => starts.above (isOperand.below.trans above)
  onLeft := by
    intro onLeft
    rcases onLeft.eq_or_below place.table isOperand with same | above
    · subst same
      exact starts.above (place.table.operatorUnique isOperand place.isLeft ▸ .refl) right
        place.isRight
    · exact starts.onLeft above

/-- What an operand binds on no side, its operator does not bind there either. -/
theorem PrecedenceYield.agree_operator
    (place : compiled.SinglePlace sequence left right)
    (yields : PrecedenceYield compiled sequence left right calls now child row found)
    (isOperand : compiled.IsOperand number child)
    (notAbove : ¬compiled.Below number sequence)
    {side : Nat}
    (isSide : compiled.IsOperand sequence side)
    (offSide : ¬compiled.Below side number) :
    Agree compiled side row found :=
  yields.agree (SinglePlace.operand_not_above isOperand notAbove) side isSide
    (place.operand_off_side isSide isOperand notAbove offSide)

/-- A filter binds the event that it is shown on its own side only. -/
theorem precedence_filter
    (place : compiled.SinglePlace sequence left right)
    {eventType : String}
    {slot : Option Nat}
    {predicate : Option Node}
    {event : Event}
    (atNumber : compiled.nodes[number]? = some (.filter eventType slot predicate))
    (starts : PrecedenceStart compiled sequence left right calls now number row)
    (shown : Shown calls now event) :
    PrecedenceYield compiled sequence left right calls (now + 1) number row
      (bindEvent row slot event) := by
  cases slot with
  | none =>
      exact ⟨starts.split.mono (Nat.le_succ _), fun _ _ _ _ _ _ => rfl⟩
  | some slot =>
      have binds : compiled.Binds number slot := ⟨eventType, predicate, atNumber⟩
      have kept : ∀ {side other : Nat}, ¬compiled.Below side number →
          compiled.BindsBelow side other →
            (bindEvent row (some slot) event).get other = row.get other := by
        intro side other offSide ofSide
        refine Row.get_set_of_ne row ?_ _
        intro same
        exact offSide (place.below_of_binds (same ▸ binds) ofSide)
      have isNow : ∀ {first other : Nat}, first ≤ now →
          ShownIn calls first now (row.get other) →
            ShownIn calls first (now + 1) ((bindEvent row (some slot) event).get other) := by
        intro first other order before
        rcases Row.get_set row slot other (.event event) with same | ⟨_, isEvent⟩
        · rw [bindEvent, same]
          exact before.mono (Nat.le_refl _) (Nat.le_succ _)
        · rw [bindEvent, isEvent]
          intro other member
          rw [Value.events_event, List.mem_singleton] at member
          exact ⟨now, order, Nat.lt_succ_self _, member ▸ shown⟩
      refine ⟨?_, fun _ side _ offSide other ofSide => kept offSide ofSide⟩
      by_cases onLeft : compiled.Below left number
      · -- On the left the turn comes after the event.
        have turned := starts.split.turnNow (starts.onLeft onLeft)
        refine ⟨now + 1, Nat.le_refl _, fun ofLeft => ?_, fun {other} ofRight => ?_⟩
        · exact isNow (Nat.zero_le _) (turned.onLeft ofLeft)
        · rw [kept (place.apart onLeft) ofRight, starts.onLeft onLeft other ofRight]
          exact shownIn_null _ _ _
      · obtain ⟨turn, come, turned⟩ := starts.split
        refine ⟨turn, Nat.le_succ_of_le come, fun ofLeft => ?_, fun ofRight => ?_⟩
        · rw [kept onLeft ofLeft]
          exact turned.onLeft ofLeft
        · exact isNow come (turned.onRight ofRight)

/-- A right operand of any sequence starts with what the left one reported. -/
theorem precedence_right
    (place : compiled.SinglePlace sequence left right)
    {first second : Nat}
    (atNumber : compiled.nodes[number]? = some (.sequence first second))
    (starts : PrecedenceStart compiled sequence left right calls now number row)
    (passed : PrecedenceYield compiled sequence left right calls now first row middle) :
    PrecedenceStart compiled sequence left right calls now second middle := by
  have isFirst : compiled.IsOperand number first := ⟨_, atNumber, by simp [PatternNode.children]⟩
  have isSecond : compiled.IsOperand number second :=
    ⟨_, atNumber, by simp [PatternNode.children]⟩
  have different : second ≠ first := by
    have distinct := place.table.operandsNodup atNumber
    simp only [PatternNode.children, List.nodup_cons, List.mem_singleton] at distinct
    exact Ne.symm distinct.1
  refine ⟨passed.split, fun above side isSide slot ofSide => ?_, fun onLeft slot ofRight => ?_⟩
  · obtain ⟨notAbove, offSides⟩ := place.beside isSecond isFirst different above
    rw [passed.agree notAbove side isSide (offSides side isSide) slot ofSide]
    exact starts.above (isSecond.below.trans above) side isSide slot ofSide
  · rcases onLeft.eq_or_below place.table isSecond with same | above
    · subst same
      have isPlace := place.table.operatorUnique isSecond place.isLeft
      subst isPlace
      rw [place.isSequence] at atNumber
      cases atNumber
      exact absurd rfl place.left_ne_right
    · have below := above.trans isFirst.below
      rw [passed.agree (place.not_above place.isLeft below) right place.isRight
        (place.apart below) slot ofRight]
      exact starts.onLeft above slot ofRight

/-- What both operands of a sequence report, the sequence reports. -/
theorem precedence_yieldRight
    (place : compiled.SinglePlace sequence left right)
    {first second : Nat}
    (atNumber : compiled.nodes[number]? = some (.sequence first second))
    (passed : PrecedenceYield compiled sequence left right calls now first row middle)
    (yields : PrecedenceYield compiled sequence left right calls now second middle found) :
    PrecedenceYield compiled sequence left right calls now number row found where
  split := yields.split
  agree := by
    intro notAbove side isSide offSide slot ofSide
    have isFirst : compiled.IsOperand number first :=
      ⟨_, atNumber, by simp [PatternNode.children]⟩
    have isSecond : compiled.IsOperand number second :=
      ⟨_, atNumber, by simp [PatternNode.children]⟩
    exact (yields.agree_operator place isSecond notAbove isSide offSide slot ofSide).trans
      (passed.agree_operator place isFirst notAbove isSide offSide slot ofSide)

private theorem exists_child
    {related : Nat → Conjunct → Prop}
    {children : List Nat}
    {operands : List Conjunct}
    (all : List.Forall₂ related children operands)
    {operand : Conjunct}
    (member : operand ∈ operands) :
    ∃ child ∈ children, related child operand := by
  induction all with
  | nil =>
      cases member
  | cons first _ inductionHypothesis =>
      rcases List.mem_cons.mp member with isFirst | inRest
      · exact ⟨_, by simp, isFirst ▸ first⟩
      · obtain ⟨child, inChildren, isRelated⟩ := inductionHypothesis inRest
        exact ⟨child, List.mem_cons_of_mem _ inChildren, isRelated⟩

/-- One operand belongs to a child, and the others belong to other children. -/
private theorem exists_onlyOperand
    {related : Nat → Conjunct → Prop}
    {children : List Nat}
    {operands : List Conjunct}
    (all : List.Forall₂ related children operands)
    (distinct : children.Nodup)
    (member : child ∈ children) :
    ∃ operand, related child operand ∧
      ∀ other ∈ operands, other = operand ∨ ∃ sibling ∈ children, sibling ≠ child ∧
        related sibling other := by
  induction all with
  | nil =>
      cases member
  | @cons head _ _ _ first rest inductionHypothesis =>
      obtain ⟨outside, restDistinct⟩ := List.nodup_cons.mp distinct
      rcases List.mem_cons.mp member with isFirst | inRest
      · subst isFirst
        refine ⟨_, first, fun other inOperands => ?_⟩
        rcases List.mem_cons.mp inOperands with isSame | behind
        · exact .inl isSame
        · obtain ⟨sibling, inChildren, isRelated⟩ := exists_child rest behind
          exact .inr ⟨sibling, List.mem_cons_of_mem _ inChildren,
            fun same => outside (same ▸ inChildren), isRelated⟩
      · obtain ⟨operand, isRelated, others⟩ := inductionHypothesis restDistinct inRest
        refine ⟨operand, isRelated, fun other inOperands => ?_⟩
        rcases List.mem_cons.mp inOperands with isFirst | behind
        · exact .inr ⟨head, by simp, fun same => outside (same ▸ inRest), isFirst ▸ first⟩
        · rcases others other behind with isOperand | ⟨sibling, inChildren, rest⟩
          · exact .inl isOperand
          · exact .inr ⟨sibling, List.mem_cons_of_mem _ inChildren, rest⟩

/-- The operands of a conjunction, all of which have matched. -/
abbrev Merging
    (compiled : CompiledPattern)
    (sequence left right : Nat)
    (calls : List Engine.Call)
    (now : Nat)
    (row : Row)
    (children : List Nat)
    (operands : List Conjunct) : Prop :=
  List.Forall₂
    (fun child operand =>
      ∃ found, operand.bindings = some found ∧
        PrecedenceYield compiled sequence left right calls now child row found)
    children operands

private theorem split_mergeAbove
    (place : compiled.SinglePlace sequence left right)
    {children : List Nat}
    {operands : List Conjunct}
    (atNumber : compiled.nodes[number]? = some (.conjunction children))
    (starts : PrecedenceStart compiled sequence left right calls now number row)
    (all : Merging compiled sequence left right calls now row children operands)
    (above : compiled.Below number sequence) :
    Split compiled left right calls now (Conjunct.merge row operands) := by
  rcases above.eq_or_exists_operand with same | ⟨inner, isInner, innerAbove⟩
  · subst same
    cases place.isSequence.symm.trans atNumber
  · have inChildren : inner ∈ children := by
      obtain ⟨_, atNode, member⟩ := isInner
      cases atNumber.symm.trans atNode
      exact member
    obtain ⟨operand, ⟨found, isBound, yields⟩, others⟩ :=
      exists_onlyOperand all (place.table.operandsNodup atNumber) inChildren
    have bound : ∀ {side slot : Nat}, compiled.IsOperand sequence side →
        compiled.BindsBelow side slot →
          (Conjunct.merge row operands).get slot = .null ∨
            (Conjunct.merge row operands).get slot = found.get slot := by
      intro side slot isSide ofSide
      have unbound := starts.above above side isSide slot ofSide
      rcases get_merge row operands slot with
        kept | ⟨_, other, inOperands, otherRow, otherBound, isOther⟩
      · exact .inl (kept.trans unbound)
      · rcases others other inOperands with
          same | ⟨sibling, inSiblings, different, siblingRow, siblingBound, siblingYields⟩
        · subst same
          cases isBound.symm.trans otherBound
          exact .inr isOther
        · cases siblingBound.symm.trans otherBound
          have isSibling : compiled.IsOperand number sibling := ⟨_, atNumber, inSiblings⟩
          obtain ⟨notAbove, offSides⟩ :=
            place.beside isInner isSibling (Ne.symm different) innerAbove
          have agrees := siblingYields.agree notAbove side isSide (offSides side isSide) slot ofSide
          exact .inl (isOther.trans (agrees.trans unbound))
    obtain ⟨turn, come, turned⟩ := yields.split
    refine ⟨turn, come, fun ofLeft => ?_, fun ofRight => ?_⟩
    · rcases bound place.isLeft ofLeft with isNull | isFound
      · rw [isNull]
        exact shownIn_null _ _ _
      · rw [isFound]
        exact turned.onLeft ofLeft
    · rcases bound place.isRight ofRight with isNull | isFound
      · rw [isNull]
        exact shownIn_null _ _ _
      · rw [isFound]
        exact turned.onRight ofRight

private theorem Merging.agree
    (place : compiled.SinglePlace sequence left right)
    {children : List Nat}
    {operands : List Conjunct}
    (all : Merging compiled sequence left right calls now row children operands)
    (atNumber : compiled.nodes[number]? = some (.conjunction children))
    (notAbove : ¬compiled.Below number sequence)
    {side : Nat}
    (isSide : compiled.IsOperand sequence side)
    (offSide : ¬compiled.Below side number) :
    ∀ other ∈ operands.filterMap Conjunct.bindings,
      Split compiled left right calls now other ∧ Agree compiled side row other := by
  intro other member
  obtain ⟨operand, inOperands, isBound⟩ := List.mem_filterMap.mp member
  obtain ⟨child, inChildren, found, isFound, yields⟩ := exists_child all inOperands
  cases isFound.symm.trans isBound
  exact ⟨yields.split,
    yields.agree_operator place ⟨_, atNumber, inChildren⟩ notAbove isSide offSide⟩

/-- A conjunction merges rows that agree where it binds nothing, and have a turn together. -/
theorem precedence_merge
    (place : compiled.SinglePlace sequence left right)
    {children : List Nat}
    {operands : List Conjunct}
    (atNumber : compiled.nodes[number]? = some (.conjunction children))
    (starts : PrecedenceStart compiled sequence left right calls now number row)
    (all : Merging compiled sequence left right calls now row children operands) :
    PrecedenceYield compiled sequence left right calls now number row
      (Conjunct.merge row operands) := by
  have agree : ¬compiled.Below number sequence →
      ∀ side, compiled.IsOperand sequence side → ¬compiled.Below side number →
        Agree compiled side row (Conjunct.merge row operands) := by
    intro notAbove side isSide offSide slot ofSide
    rcases get_merge row operands slot with
      kept | ⟨_, operand, inOperands, found, isBound, isFound⟩
    · exact kept
    · have member := List.mem_filterMap.mpr ⟨operand, inOperands, isBound⟩
      exact isFound.trans
        ((all.agree place atNumber notAbove isSide offSide found member).2 slot ofSide)
  refine ⟨?_, agree⟩
  by_cases above : compiled.Below number sequence
  · exact split_mergeAbove place atNumber starts all above
  · have bound : ∀ slot, Row.get (Conjunct.merge row operands) slot = row.get slot ∨
        ∃ other ∈ operands.filterMap Conjunct.bindings,
          Row.get (Conjunct.merge row operands) slot = other.get slot := by
      intro slot
      rcases get_merge row operands slot with
        kept | ⟨_, operand, inOperands, found, isBound, isFound⟩
      · exact .inl kept
      · exact .inr ⟨found, List.mem_filterMap.mpr ⟨operand, inOperands, isBound⟩, isFound⟩
    by_cases onLeft : compiled.Below left number
    · have offRight := place.apart onLeft
      have unbound := starts.onLeft onLeft
      refine ⟨now, Nat.le_refl _, fun {slot} ofLeft => ?_, fun {slot} ofRight => ?_⟩
      · rcases bound slot with kept | ⟨other, member, isOther⟩
        · rw [kept]
          exact (starts.split.turnNow unbound).onLeft ofLeft
        · obtain ⟨split, agrees⟩ :=
            all.agree place atNumber above place.isRight offRight other member
          rw [isOther]
          exact (split.turnNow fun slot ofRight =>
            (agrees slot ofRight).trans (unbound slot ofRight)).onLeft ofLeft
      · rw [agree above right place.isRight offRight slot ofRight, unbound slot ofRight]
        exact shownIn_null _ _ _
    · have operandsAgree := all.agree place atNumber above place.isLeft onLeft
      obtain ⟨turn, come, turned, operandsTurned⟩ :=
        exists_commonTurn starts.split _ (fun other member => (operandsAgree other member).1)
          fun other member => (operandsAgree other member).2
      refine ⟨turn, come, fun {slot} ofLeft => ?_, fun {slot} ofRight => ?_⟩
      · rcases bound slot with kept | ⟨other, member, isOther⟩
        · rw [kept]
          exact turned.onLeft ofLeft
        · rw [isOther]
          exact (operandsTurned other member).onLeft ofLeft
      · rcases bound slot with kept | ⟨other, member, isOther⟩
        · rw [kept]
          exact turned.onRight ofRight
        · rw [isOther]
          exact (operandsTurned other member).onRight ofRight

/-- A repetition begins with empty sequences at slots that are bound in its rounds only. -/
theorem precedence_initial
    (place : compiled.SinglePlace sequence left right)
    {least : Nat}
    {most : Option Nat}
    {innerSlots : List Nat}
    (atNumber : compiled.nodes[number]? = some (.repetition child least most innerSlots))
    (starts : PrecedenceStart compiled sequence left right calls now number row) :
    PrecedenceYield compiled sequence left right calls now number row
      (Progress.withEmptySequences row innerSlots) where
  split := by
    refine starts.split.of_events_subset fun slot event member => ?_
    rcases get_withEmptySequences row innerSlots slot with kept | ⟨_, isEmpty⟩
    · rw [kept] at member
      exact member
    · rw [isEmpty] at member
      simp at member
  agree := by
    intro _ side isSide offSide slot ofSide
    exact (get_withEmptySequences row innerSlots slot).resolve_right
      fun changed => place.not_innerSlot atNumber isSide offSide ofSide changed.1

/-- A round starts with what was collected outside the rounds. -/
theorem precedence_round
    (place : compiled.SinglePlace sequence left right)
    {least : Nat}
    {most : Option Nat}
    {innerSlots : List Nat}
    (atNumber : compiled.nodes[number]? = some (.repetition child least most innerSlots))
    (starts : PrecedenceStart compiled sequence left right calls now number row)
    (collected : PrecedenceYield compiled sequence left right calls now number row found) :
    PrecedenceStart compiled sequence left right calls now child
      (Engine.roundBindings found innerSlots) := by
  have isOperand : compiled.IsOperand number child := ⟨_, atNumber, .head _⟩
  have notAbove : ¬compiled.Below number sequence := place.notRepeated atNumber
  refine ⟨?_, fun above => absurd (isOperand.below.trans above) notAbove, ?_⟩
  · refine collected.split.of_events_subset fun slot event member => ?_
    rcases get_roundBindings found innerSlots slot with kept | ⟨_, isNull⟩
    · rw [kept] at member
      exact member
    · rw [isNull] at member
      simp at member
  · intro onLeft slot ofRight
    rcases onLeft.eq_or_below place.table isOperand with same | above
    · subst same
      cases place.table.operatorUnique isOperand place.isLeft
      cases place.isSequence.symm.trans atNumber
    · rcases get_roundBindings found innerSlots slot with kept | ⟨_, isNull⟩
      · rw [kept, collected.agree notAbove right place.isRight (place.apart above) slot ofRight]
        exact starts.onLeft above slot ofRight
      · exact isNull

/-- Collecting a round keeps the turn of what was collected. -/
theorem precedence_collect
    (place : compiled.SinglePlace sequence left right)
    {least : Nat}
    {most : Option Nat}
    {innerSlots : List Nat}
    {early collected : Row}
    (atNumber : compiled.nodes[number]? = some (.repetition child least most innerSlots))
    (starts : PrecedenceStart compiled sequence left right calls now number row)
    (before : PrecedenceYield compiled sequence left right calls now number row early)
    (after : PrecedenceYield compiled sequence left right calls now number row collected)
    (yields :
      PrecedenceYield compiled sequence left right calls now child
        (Engine.roundBindings early innerSlots) found) :
    PrecedenceYield compiled sequence left right calls now number row
      (Engine.collect collected found innerSlots) := by
  have isOperand : compiled.IsOperand number child := ⟨_, atNumber, .head _⟩
  have notAbove : ¬compiled.Below number sequence := place.notRepeated atNumber
  have kept : ∀ {side slot : Nat}, compiled.IsOperand sequence side →
      ¬compiled.Below side number → compiled.BindsBelow side slot →
        Row.get (Engine.collect collected found innerSlots) slot = collected.get slot := by
    intro side slot isSide offSide ofSide
    exact (events_collect collected found innerSlots slot).resolve_right
      fun changed => place.not_innerSlot atNumber isSide offSide ofSide changed.1
  have foundAgrees : ∀ {side : Nat}, compiled.IsOperand sequence side →
      ¬compiled.Below side number → Agree compiled side row found := by
    intro side isSide offSide slot ofSide
    have round : Row.get (Engine.roundBindings early innerSlots) slot = early.get slot :=
      (get_roundBindings early innerSlots slot).resolve_right
        fun changed => place.not_innerSlot atNumber isSide offSide ofSide changed.1
    rw [yields.agree_operator place isOperand notAbove isSide offSide slot ofSide, round]
    exact before.agree notAbove side isSide offSide slot ofSide
  have shown : ∀ {first slot : Nat}, ShownIn calls first now (Row.get collected slot) →
      ShownIn calls first now (Row.get found slot) →
        ShownIn calls first now
          (Row.get (Engine.collect collected found innerSlots) slot) := by
    intro first slot inCollected inFound event member
    rcases events_collect collected found innerSlots slot with same | ⟨_, among⟩
    · rw [same] at member
      exact inCollected event member
    · rcases among event member with isOld | isNew
      · exact inCollected event isOld
      · exact inFound event isNew
  refine ⟨?_, fun _ side isSide offSide slot ofSide => ?_⟩
  · by_cases onLeft : compiled.Below left number
    · have offRight := place.apart onLeft
      have unbound := starts.onLeft onLeft
      have collectedUnbound : Unbound compiled right collected := fun slot ofRight =>
        (after.agree notAbove right place.isRight offRight slot ofRight).trans
          (unbound slot ofRight)
      have foundUnbound : Unbound compiled right found := fun slot ofRight =>
        (foundAgrees place.isRight offRight slot ofRight).trans (unbound slot ofRight)
      refine ⟨now, Nat.le_refl _, fun ofLeft => ?_, fun {slot} ofRight => ?_⟩
      · exact shown ((after.split.turnNow collectedUnbound).onLeft ofLeft)
          ((yields.split.turnNow foundUnbound).onLeft ofLeft)
      · rw [kept place.isRight offRight ofRight, collectedUnbound slot ofRight]
        exact shownIn_null _ _ _
    · have sameLeft : Agree compiled left collected found := fun slot ofLeft =>
        (foundAgrees place.isLeft onLeft slot ofLeft).trans
          (after.agree notAbove left place.isLeft onLeft slot ofLeft).symm
      obtain ⟨turn, come, turned, foundTurned⟩ :=
        exists_commonTurn after.split [found]
          (fun other member => List.mem_singleton.mp member ▸ yields.split)
          fun other member => List.mem_singleton.mp member ▸ sameLeft
      refine ⟨turn, come, fun ofLeft => ?_, fun ofRight => ?_⟩
      · rw [kept place.isLeft onLeft ofLeft]
        exact turned.onLeft ofLeft
      · exact shown (turned.onRight ofRight) ((foundTurned found (by simp)).onRight ofRight)
  · exact (kept isSide offSide ofSide).trans
      (after.agree notAbove side isSide offSide slot ofSide)

/-- The row law of a sequence: left events come before right ones. -/
def RowLaw.precedence
    (place : compiled.SinglePlace sequence left right)
    (calls : List Engine.Call) :
    RowLaw compiled where
  start := PrecedenceStart compiled sequence left right calls
  yield := PrecedenceYield compiled sequence left right calls
  rounds := fun now number row _ collected =>
    PrecedenceYield compiled sequence left right calls now number row collected
  admits := Shown calls
  start_mono := fun order starts => ⟨starts.split.mono order, starts.above, starts.onLeft⟩
  yield_mono := fun order yields => ⟨yields.split.mono order, yields.agree⟩
  rounds_mono := fun order yields => ⟨yields.split.mono order, yields.agree⟩
  start_blank := by
    have unbound : ∀ side, Unbound compiled side compiled.blank :=
      fun side slot _ => Row.get_replicate_null _ slot
    exact ⟨split_of_unbound _ (unbound left) (unbound right), fun _ side _ => unbound side,
      fun _ => unbound right⟩
  yield_filter := fun atNumber starts shown _ => precedence_filter place atNumber starts shown
  yield_timer := fun _ starts => ⟨starts.split, fun _ _ _ _ _ _ => rfl⟩
  yield_negation := fun _ starts => ⟨starts.split, fun _ _ _ _ _ _ => rfl⟩
  start_opening := fun atNumber opening starts =>
    starts.operand place ⟨_, atNumber, PatternNode.opening_subset opening⟩
  yield_passing := fun atNumber passing _ yields =>
    ⟨yields.split, fun notAbove _ isSide offSide =>
      yields.agree_operator place ⟨_, atNumber, PatternNode.passing_subset passing⟩ notAbove
        isSide offSide⟩
  start_right := fun atNumber starts passed => precedence_right place atNumber starts passed
  yield_right := fun atNumber _ passed yields =>
    precedence_yieldRight place atNumber passed yields
  yield_merge := fun atNumber starts all => precedence_merge place atNumber starts all
  rounds_initial := fun atNumber starts => precedence_initial place atNumber starts
  start_round := fun atNumber starts collected =>
    precedence_round place atNumber starts collected
  rounds_collect := fun atNumber starts _ before after yields =>
    precedence_collect place atNumber starts before after yields
  yield_rounds := fun _ _ collected => collected

end Law

namespace Engine

/--
In every match of a run, the events bound on the left of a sequence were shown by earlier calls than
the events bound on its right.  When no event is shown twice, every left event therefore comes
strictly before every right one, and no event is on both sides.
-/
theorem Run.left_precedes_right
    {schema : Schema}
    {expr : PatternExpr}
    {compiled : CompiledPattern}
    (success : CompiledPattern.compile schema expr = .ok compiled)
    (oneFilter :
      ∀ {first second slot : Nat},
        compiled.Binds first slot → compiled.Binds second slot → first = second)
    {sequence left right : Nat}
    (isSequence : compiled.nodes[sequence]? = some (.sequence left right))
    (notRepeated :
      ∀ {number child least : Nat} {most : Option Nat} {innerSlots : List Nat},
        compiled.nodes[number]? = some (.repetition child least most innerSlots) →
          ¬compiled.Below number sequence)
    {limit patience : Nat}
    {now : Int}
    {calls : List Call}
    {engine : Engine}
    (run : Run compiled limit patience now calls engine)
    (next : Call) :
    ∀ row ∈ (engine.call next).2,
      (∃ turn : Nat,
        (∀ slot, compiled.BindsBelow left slot → ∀ event ∈ (Row.get row slot).events,
          ∃ place, place < turn ∧ (calls ++ [next])[place]? = some (.event event)) ∧
        (∀ slot, compiled.BindsBelow right slot → ∀ event ∈ (Row.get row slot).events,
          ∃ place, turn ≤ place ∧ (calls ++ [next])[place]? = some (.event event))) ∧
      ((∀ {first second : Nat} {event : Event},
          (calls ++ [next])[first]? = some (.event event) →
            (calls ++ [next])[second]? = some (.event event) → first = second) →
        ∀ {leftSlot rightSlot : Nat}, compiled.BindsBelow left leftSlot →
          compiled.BindsBelow right rightSlot →
            ∀ leftEvent ∈ (Row.get row leftSlot).events,
              ∀ rightEvent ∈ (Row.get row rightSlot).events,
                leftEvent ≠ rightEvent ∧
                  ∀ {first second : Nat}, (calls ++ [next])[first]? = some (.event leftEvent) →
                    (calls ++ [next])[second]? = some (.event rightEvent) → first < second) := by
  have place : compiled.SinglePlace sequence left right :=
    { table := sound_of_compile success
      isSequence := isSequence
      notRepeated := notRepeated
      oneFilter := oneFilter
      innerSlots := fun atNumber isInner => exists_binds_of_innerSlots success atNumber isInner }
  intro row member
  have yields := run.handsOut place.table (RowLaw.precedence place (calls ++ [next])) next
    (fun {index event} atIndex => ⟨index, rfl, atIndex⟩) row member
  obtain ⟨turn, come, turned⟩ := yields.split
  have onLeft : ∀ slot, compiled.BindsBelow left slot → ∀ event ∈ (Row.get row slot).events,
      ∃ place, place < turn - 1 ∧ (calls ++ [next])[place]? = some (.event event) := by
    intro slot ofLeft event inSlot
    obtain ⟨moment, _, before, index, isMoment, atIndex⟩ := turned.onLeft ofLeft event inSlot
    exact ⟨index, by omega, atIndex⟩
  have onRight : ∀ slot, compiled.BindsBelow right slot → ∀ event ∈ (Row.get row slot).events,
      ∃ place, turn - 1 ≤ place ∧ (calls ++ [next])[place]? = some (.event event) := by
    intro slot ofRight event inSlot
    obtain ⟨moment, after, _, index, isMoment, atIndex⟩ := turned.onRight ofRight event inSlot
    exact ⟨index, by omega, atIndex⟩
  refine ⟨⟨turn - 1, onLeft, onRight⟩, ?_⟩
  intro once leftSlot rightSlot ofLeft ofRight leftEvent inLeft rightEvent inRight
  obtain ⟨early, before, atEarly⟩ := onLeft leftSlot ofLeft leftEvent inLeft
  obtain ⟨late, after, atLate⟩ := onRight rightSlot ofRight rightEvent inRight
  refine ⟨?_, fun {first second} atFirst atSecond => ?_⟩
  · intro same
    subst same
    have := once atEarly atLate
    omega
  · have isEarly := once atFirst atEarly
    have isLate := once atSecond atLate
    omega

/-- A later event of the type of a tick. -/
def laterTick : Event := ⟨.given 1, "Tick", []⟩

/-- A tick followed by another, as written. -/
def twoTicks : PatternExpr :=
  .sequence (.filter ⟨some "first", "Tick", none⟩) (.filter ⟨some "second", "Tick", none⟩)

/-- A tick followed by another, compiled. -/
def twoTicksCompiled : CompiledPattern :=
  ⟨[.sequence 1 2, .filter "Tick" (some 0) none, .filter "Tick" (some 1) none],
    [⟨"first", "Tick", 0, []⟩, ⟨"second", "Tick", 1, []⟩]⟩

/-- An engine that has been shown the first tick. -/
def afterFirstTick : Engine :=
  ((Engine.start twoTicksCompiled 10 10 0).call (.event tick)).1

/-- The filters of the two ticks bind different slots. -/
theorem oneFilter_twoTicks
    {first second slot : Nat}
    (isFirst : twoTicksCompiled.Binds first slot)
    (isSecond : twoTicksCompiled.Binds second slot) :
    first = second := by
  have binds : ∀ {number : Nat}, twoTicksCompiled.Binds number slot → number = slot + 1 := by
    rintro number ⟨eventType, predicate, atNumber⟩
    match number with
    | 0 => cases atNumber
    | 1 => cases atNumber; rfl
    | 2 => cases atNumber; rfl
    | _ + 3 => cases atNumber
  rw [binds isFirst, binds isSecond]

/-- Two ticks are matched in their order. -/
theorem Run.left_precedes_right_twoTicks :
    [.event tick, .event laterTick] ∈ (afterFirstTick.call (.event laterTick)).2 ∧
      ∃ turn : Nat,
        (∀ slot, twoTicksCompiled.BindsBelow 1 slot →
          ∀ event ∈ (Row.get [.event tick, .event laterTick] slot).events,
            ∃ place, place < turn ∧
              [Call.event tick, .event laterTick][place]? = some (.event event)) ∧
        (∀ slot, twoTicksCompiled.BindsBelow 2 slot →
          ∀ event ∈ (Row.get [.event tick, .event laterTick] slot).events,
            ∃ place, turn ≤ place ∧
              [Call.event tick, .event laterTick][place]? = some (.event event)) := by
  have matched : [.event tick, .event laterTick] ∈
      (afterFirstTick.call (.event laterTick)).2 := by
    have handsOut : (afterFirstTick.call (.event laterTick)).2 =
        [[.event tick, .event laterTick]] := by
      change (afterFirstTick.begun (.event laterTick)).settle.completed = _
      cbv
    rw [handsOut]
    exact .head _
  have compiles : CompiledPattern.compile tickSchema twoTicks = .ok twoTicksCompiled := rfl
  have run : Run twoTicksCompiled 10 10 0 [.event tick] afterFirstTick :=
    .call (.event tick) (.start rfl) (by cbv)
  have notRepeated : ∀ {number child least : Nat} {most : Option Nat} {innerSlots : List Nat},
      twoTicksCompiled.nodes[number]? = some (.repetition child least most innerSlots) →
        ¬twoTicksCompiled.Below number 0 := by
    intro number child least most innerSlots atNumber
    rcases number with _ | _ | _ | _ <;> cases atNumber
  exact ⟨matched, (Run.left_precedes_right compiles oneFilter_twoTicks rfl notRepeated run
    (.event laterTick) _ matched).1⟩

end Engine

end EventQuery
