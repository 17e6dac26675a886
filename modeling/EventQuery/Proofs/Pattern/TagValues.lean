import EventQuery.Proofs.Binding.Conformance
import EventQuery.Proofs.Pattern.Enclosing
import EventQuery.Proofs.Pattern.RowSlots
import EventQuery.Proofs.Pattern.WellFormed
import Mathlib

namespace EventQuery

/-!
# Values under tags

A tag is declared to hold an event, or a sequence of events when it stands inside repetitions.  What
a match holds there is as deep as the repetitions around the declaration are many: each of them
collects, round by round, what its operand held.  A filter that binds the tag again from outside some
of them puts its event less deep.  So the value conforms to the declared type when there is one
repetition at most and no such filter, and two repetitions inside one another give sequences of
sequences.
-/

namespace CompiledPattern

variable {compiled : CompiledPattern} {schema : Schema} {expr : PatternExpr} {tag : Tag}
  {number operand : Nat}

section Depth

open Classical in
/-- How many of the repetitions that collect a tag a node does not stand inside of. -/
noncomputable def depth (compiled : CompiledPattern) (tag : Tag) (number : Nat) : Nat :=
  tag.repetitions.countP fun repetition =>
    decide ¬(compiled.Below repetition number ∧ repetition ≠ number)

/-- No repetition is around the root. -/
theorem depth_root
    (table : compiled.Sound)
    (tag : Tag) :
    compiled.depth tag rootNumber = tag.repetitions.length := by
  rw [depth, List.countP_eq_length]
  intro repetition _
  simp only [decide_eq_true_eq]
  rintro ⟨below, different⟩
  exact different (Nat.le_zero.mp (below.le table))

/-- An operator that does not collect a tag leaves its depth. -/
theorem depth_operand_of_notMem
    (table : compiled.Sound)
    (isOperand : compiled.IsOperand number operand)
    (notCollected : number ∉ tag.repetitions) :
    compiled.depth tag operand = compiled.depth tag number := by
  refine List.countP_congr fun repetition member => ?_
  have different : repetition ≠ number := fun same => notCollected (same ▸ member)
  simp only [decide_eq_true_eq, inside_operand_iff table isOperand, different, ne_eq,
    not_false_eq_true, and_true]

/-- A repetition that collects a tag holds it one sequence deeper than its operand. -/
theorem depth_of_mem
    (table : compiled.Sound)
    (isOperand : compiled.IsOperand number operand)
    (nodup : tag.repetitions.Nodup)
    (collected : number ∈ tag.repetitions) :
    compiled.depth tag number = compiled.depth tag operand + 1 := by
  have split := List.perm_cons_erase collected
  rw [depth, depth, split.countP_eq, split.countP_eq, List.countP_cons_of_pos (by simp),
    List.countP_cons_of_neg (by simp [inside_operand_iff table isOperand, Below.refl])]
  refine congrArg (· + 1) (List.countP_congr fun repetition member => ?_)
  have different : repetition ≠ number := ((nodup.mem_erase_iff).mp member).1
  simp only [decide_eq_true_eq, inside_operand_iff table isOperand, different, ne_eq,
    not_false_eq_true, and_true]

/-- Inside all repetitions that collect a tag nothing is left to be collected. -/
theorem depth_eq_zero
    (inside : ∀ repetition ∈ tag.repetitions,
      compiled.Below repetition number ∧ repetition ≠ number) :
    compiled.depth tag number = 0 :=
  List.countP_eq_zero.mpr fun repetition member => by simpa using inside repetition member

end Depth

section Declared

theorem nodup_repetitions
    (success : compile schema expr = .ok compiled)
    (member : tag ∈ compiled.tags) :
    tag.repetitions.Nodup := by
  obtain ⟨filter, _, around⟩ := exists_declares_of_compile success member
  exact around.nodup (sound_of_compile success)

/-- Only repetitions collect tags. -/
theorem notMem_repetitions
    (success : compile schema expr = .ok compiled)
    (member : tag ∈ compiled.tags)
    {node : PatternNode}
    (atNumber : compiled.nodes[number]? = some node)
    (other : ∀ child least most innerSlots, node ≠ .repetition child least most innerSlots) :
    number ∉ tag.repetitions := by
  intro collected
  obtain ⟨filter, _, around⟩ := exists_declares_of_compile success member
  obtain ⟨child, least, most, innerSlots, isRepetition⟩ := around.isRepetition collected
  exact other child least most innerSlots (Option.some.inj (atNumber.symm.trans isRepetition))

end Declared

end CompiledPattern

/-- What may stand under a tag at a depth, closed under all that filters and repetitions do. -/
structure Layered (compiled : CompiledPattern) (tag : Tag) (fits : Nat → Value → Prop) : Prop where
  null : ∀ {depth : Nat}, fits depth .null
  empty : ∀ {depth : Nat}, fits (depth + 1) (.array [])
  append :
    ∀ {depth : Nat} {items : List Value} {last : Value},
      fits (depth + 1) (.array items) → fits depth last →
        fits (depth + 1) (.array (items ++ [last]))
  event :
    ∀ {number : Nat} {predicate : Option Node} {event : Event},
      compiled.nodes[number]? = some (.filter tag.eventType (some tag.slot) predicate) →
        event.kind = tag.eventType → fits (compiled.depth tag number) (.event event)

section Law

open CompiledPattern

variable {compiled : CompiledPattern} {schema : Schema} {expr : PatternExpr} {tag : Tag}
  {fits : Nat → Value → Prop} {number child least : Nat} {most : Option Nat}
  {innerSlots : List Nat} {row collected found : Row}

/-- A filter puts its event under the tag, or leaves what was there. -/
private theorem fits_bindEvent
    (success : compile schema expr = .ok compiled)
    (member : tag ∈ compiled.tags)
    (layered : Layered compiled tag fits)
    {eventType : String}
    {slot : Option Nat}
    {predicate : Option Node}
    {event : Event}
    (atNumber : compiled.nodes[number]? = some (.filter eventType slot predicate))
    (ofType : event.kind = eventType)
    (before : fits (compiled.depth tag number) (Row.get row tag.slot)) :
    fits (compiled.depth tag number) (Row.get (bindEvent row slot event) tag.slot) := by
  cases slot with
  | none =>
      exact before
  | some slot =>
      rcases Row.get_set row slot tag.slot (.event event) with kept | ⟨same, isEvent⟩
      · rw [bindEvent, kept]
        exact before
      · subst same
        rw [bindEvent, isEvent]
        have sameType := eventType_of_slot success member atNumber
        subst sameType
        exact layered.event atNumber ofType

/-- A repetition of the declared tags starts with an empty sequence under the tag. -/
private theorem fits_withEmptySequences
    (success : compile schema expr = .ok compiled)
    (member : tag ∈ compiled.tags)
    (layered : Layered compiled tag fits)
    (atNumber : compiled.nodes[number]? = some (.repetition child least most innerSlots))
    (before : fits (compiled.depth tag number) (Row.get row tag.slot)) :
    fits (compiled.depth tag number)
      (Row.get (Progress.withEmptySequences row innerSlots) tag.slot) := by
  rcases get_withEmptySequences row innerSlots tag.slot with kept | ⟨isInner, isEmpty⟩
  · rw [kept]
    exact before
  · rw [isEmpty, depth_of_mem (sound_of_compile success) ⟨_, atNumber, List.mem_singleton.mpr rfl⟩
      (nodup_repetitions success member) ((slot_mem_innerSlots_iff success member atNumber).mp
        isInner)]
    exact layered.empty

/-- A round starts without a binding under a tag that its repetition collects. -/
private theorem fits_roundBindings
    (success : compile schema expr = .ok compiled)
    (member : tag ∈ compiled.tags)
    (layered : Layered compiled tag fits)
    (atNumber : compiled.nodes[number]? = some (.repetition child least most innerSlots))
    (before : fits (compiled.depth tag number) (Row.get collected tag.slot)) :
    fits (compiled.depth tag child)
      (Row.get (Engine.roundBindings collected innerSlots) tag.slot) := by
  by_cases isInner : tag.slot ∈ innerSlots
  · rw [get_roundBindings_of_mem collected isInner]
    exact layered.null
  · have kept := (get_roundBindings collected innerSlots tag.slot).resolve_right
      fun inside => isInner inside.1
    rw [kept, depth_operand_of_notMem (sound_of_compile success)
      ⟨_, atNumber, List.mem_singleton.mpr rfl⟩
      (mt (slot_mem_innerSlots_iff success member atNumber).mpr isInner)]
    exact before

/-- A round is put behind the sequence under a tag that its repetition collects. -/
private theorem fits_collect
    (success : compile schema expr = .ok compiled)
    (member : tag ∈ compiled.tags)
    (layered : Layered compiled tag fits)
    (atNumber : compiled.nodes[number]? = some (.repetition child least most innerSlots))
    (before : fits (compiled.depth tag number) (Row.get collected tag.slot))
    (round : fits (compiled.depth tag child) (Row.get found tag.slot)) :
    fits (compiled.depth tag number)
      (Row.get (Engine.collect collected found innerSlots) tag.slot) := by
  by_cases isInner : tag.slot ∈ innerSlots
  · have deeper := depth_of_mem (sound_of_compile success)
      ⟨_, atNumber, List.mem_singleton.mpr rfl⟩ (nodup_repetitions success member)
      ((slot_mem_innerSlots_iff success member atNumber).mp isInner)
    rw [deeper] at before ⊢
    exact get_collect_of_append (fun items sequence => layered.append sequence round) before
  · rw [(events_collect collected found innerSlots tag.slot).resolve_right
      fun inside => isInner inside.1]
    exact before

/-- An operand of anything but a repetition is as deep in the repetitions as its operator. -/
private theorem depth_operand_eq
    (success : compile schema expr = .ok compiled)
    (member : tag ∈ compiled.tags)
    {node : PatternNode}
    (atNumber : compiled.nodes[number]? = some node)
    (isOperand : child ∈ node.children)
    (once : ∀ child least most innerSlots, node ≠ .repetition child least most innerSlots) :
    compiled.depth tag child = compiled.depth tag number :=
  depth_operand_of_notMem (sound_of_compile success) ⟨node, atNumber, isOperand⟩
    (notMem_repetitions success member atNumber once)

/-- A pattern starts without bindings. -/
private theorem fits_blank
    (layered : Layered compiled tag fits) :
    fits (compiled.depth tag rootNumber) (Row.get compiled.blank tag.slot) := by
  rw [blank, Row.get_replicate_null]
  exact layered.null

/-- An operand starts with what is under the tag of its operator. -/
private theorem fits_opening
    (success : compile schema expr = .ok compiled)
    (member : tag ∈ compiled.tags)
    {node : PatternNode}
    (atNumber : compiled.nodes[number]? = some node)
    (isOpening : child ∈ node.opening)
    (starts : fits (compiled.depth tag number) (Row.get row tag.slot)) :
    fits (compiled.depth tag child) (Row.get row tag.slot) := by
  rw [depth_operand_eq success member atNumber (PatternNode.opening_subset isOpening)
    (by rintro _ _ _ _ rfl; cases isOpening)]
  exact starts

/-- An operator passes on what is under the tag of its operand. -/
private theorem fits_passing
    (success : compile schema expr = .ok compiled)
    (member : tag ∈ compiled.tags)
    {node : PatternNode}
    (atNumber : compiled.nodes[number]? = some node)
    (isPassing : child ∈ node.passing)
    (yields : fits (compiled.depth tag child) (Row.get found tag.slot)) :
    fits (compiled.depth tag number) (Row.get found tag.slot) := by
  rw [depth_operand_eq success member atNumber (PatternNode.passing_subset isPassing)
    (by rintro _ _ _ _ rfl; cases isPassing)] at yields
  exact yields

/-- Both operands of a sequence are as deep in the repetitions as the sequence. -/
private theorem depth_sequence_eq
    (success : compile schema expr = .ok compiled)
    (member : tag ∈ compiled.tags)
    {left right : Nat}
    (atNumber : compiled.nodes[number]? = some (.sequence left right)) :
    compiled.depth tag left = compiled.depth tag number ∧
      compiled.depth tag right = compiled.depth tag number :=
  ⟨depth_operand_eq success member atNumber (by simp [PatternNode.children]) (by simp),
    depth_operand_eq success member atNumber (by simp [PatternNode.children]) (by simp)⟩

/-- The right operand of a sequence starts with what is under the tag of a match of the left one. -/
private theorem fits_startRight
    (success : compile schema expr = .ok compiled)
    (member : tag ∈ compiled.tags)
    {left right : Nat}
    (atNumber : compiled.nodes[number]? = some (.sequence left right))
    (yields : fits (compiled.depth tag left) (Row.get found tag.slot)) :
    fits (compiled.depth tag right) (Row.get found tag.slot) := by
  obtain ⟨sameLeft, sameRight⟩ := depth_sequence_eq success member atNumber
  rw [sameRight, ← sameLeft]
  exact yields

/-- A sequence passes on what is under the tag of its right operand. -/
private theorem fits_yieldRight
    (success : compile schema expr = .ok compiled)
    (member : tag ∈ compiled.tags)
    {left right : Nat}
    (atNumber : compiled.nodes[number]? = some (.sequence left right))
    (yields : fits (compiled.depth tag right) (Row.get found tag.slot)) :
    fits (compiled.depth tag number) (Row.get found tag.slot) := by
  rw [← (depth_sequence_eq success member atNumber).2]
  exact yields

/-- A conjunction takes what is under the tag from where it started or from an operand. -/
private theorem fits_merge
    (success : compile schema expr = .ok compiled)
    (member : tag ∈ compiled.tags)
    {children : List Nat}
    {operands : List Conjunct}
    (atNumber : compiled.nodes[number]? = some (.conjunction children))
    (starts : fits (compiled.depth tag number) (Row.get row tag.slot))
    (yielded :
      List.Forall₂
        (fun child operand => ∃ found, operand.bindings = some found ∧
          fits (compiled.depth tag child) (Row.get found tag.slot))
        children operands) :
    fits (compiled.depth tag number) (Row.get (Conjunct.merge row operands) tag.slot) := by
  rcases get_merge row operands tag.slot with kept | ⟨_, operand, inOperands, found, bound, same⟩
  · rw [kept]
    exact starts
  · rw [same]
    obtain ⟨place, inRange, atPlace⟩ := List.getElem_of_mem inOperands
    have sameLength := yielded.length_eq
    obtain ⟨other, otherBound, yields⟩ := yielded.get (i := place) (by omega) inRange
    simp only [List.get_eq_getElem, atPlace] at otherBound yields
    cases bound.symm.trans otherBound
    have isChild : children[place] ∈ children := List.getElem_mem _
    rw [depth_operand_eq success member atNumber isChild (by simp)] at yields
    exact yields

/-- What is under a tag at each node is as deep as the repetitions that are still to collect it. -/
def RowLaw.layered
    (success : compile schema expr = .ok compiled)
    (member : tag ∈ compiled.tags)
    (layered : Layered compiled tag fits) :
    RowLaw compiled where
  start := fun _ number row => fits (compiled.depth tag number) (Row.get row tag.slot)
  yield := fun _ number _ found => fits (compiled.depth tag number) (Row.get found tag.slot)
  rounds := fun _ number _ _ collected =>
    fits (compiled.depth tag number) (Row.get collected tag.slot)
  admits := fun _ _ => True
  start_mono := fun _ holds => holds
  yield_mono := fun _ holds => holds
  rounds_mono := fun _ holds => holds
  start_blank := fits_blank layered
  yield_filter := fun atNumber starts _ ofType =>
    fits_bindEvent success member layered atNumber ofType starts
  yield_timer := fun _ starts => starts
  yield_negation := fun _ starts => starts
  start_opening := fun atNumber isOpening starts =>
    fits_opening success member atNumber isOpening starts
  yield_passing := fun atNumber isPassing _ yields =>
    fits_passing success member atNumber isPassing yields
  start_right := fun atNumber _ yields => fits_startRight success member atNumber yields
  yield_right := fun atNumber _ _ yields => fits_yieldRight success member atNumber yields
  yield_merge := fun atNumber starts yielded =>
    fits_merge success member atNumber starts yielded
  rounds_initial := fun atNumber starts =>
    fits_withEmptySequences success member layered atNumber starts
  start_round := fun atNumber _ rounds =>
    fits_roundBindings success member layered atNumber rounds
  rounds_collect := fun atNumber _ _ _ rounds yields =>
    fits_collect success member layered atNumber rounds yields
  yield_rounds := fun _ _ rounds => rounds

end Law

/--
An event of a type, or a sequence of such values that is at most as deep as given.  Null may stand
anywhere.
-/
def Value.Nests (eventType : String) : Nat → Value → Prop
  | _, .null => True
  | _, .event entity => entity.kind = eventType
  | depth + 1, .array items => ∀ item ∈ items, item.Nests eventType depth
  | _, _ => False

/-- The type of sequences of sequences, as deep as given. -/
def ValueType.sequences (element : ValueType) : Nat → ValueType
  | 0 => element
  | depth + 1 => .array (element.sequences depth)

/-- Every filter that binds a tag stands inside all repetitions that collect the tag. -/
def CompiledPattern.Gathers (compiled : CompiledPattern) (tag : Tag) : Prop :=
  ∀ number, compiled.Binds number tag.slot →
    ∀ repetition ∈ tag.repetitions, compiled.Below repetition number

section Shapes

open CompiledPattern

variable {compiled : CompiledPattern} {schema : Schema} {expr : PatternExpr} {tag : Tag}

/-- Wherever a tag is bound, what it holds is at most as deep as its repetitions are many. -/
theorem layered_nests
    (compiled : CompiledPattern)
    (tag : Tag) :
    Layered compiled tag (Value.Nests tag.eventType) where
  null := by
    intro depth
    cases depth <;> exact trivial
  empty := by simp [Value.Nests]
  append := by
    intro depth items last sequence fits item member
    rcases List.mem_append.mp member with earlier | isLast
    · exact sequence item earlier
    · exact List.mem_singleton.mp isLast ▸ fits
  event := by
    intro number predicate event _ ofType
    cases compiled.depth tag number <;> exact ofType

/-- A tag that is bound inside its repetitions only holds sequences as deep as these are many. -/
theorem layered_includes
    (success : compile schema expr = .ok compiled)
    (member : tag ∈ compiled.tags)
    (gathers : compiled.Gathers tag) :
    Layered compiled tag fun depth =>
      ((ValueType.event tag.eventType).sequences depth).Includes where
  null := ValueType.includes_null _
  empty := by simp [ValueType.sequences, ValueType.Includes]
  append := by
    intro depth items last sequence fits item member
    rcases List.mem_append.mp member with earlier | isLast
    · exact sequence item earlier
    · exact List.mem_singleton.mp isLast ▸ fits
  event := by
    intro number predicate event atNumber ofType
    have isLeaf := notMem_repetitions success member atNumber (by simp)
    rw [depth_eq_zero fun repetition collected =>
      ⟨gathers number ⟨_, _, atNumber⟩ repetition collected,
        fun same => isLeaf (same ▸ collected)⟩]
    exact ofType

/-- With one repetition at most, the declared type is the one of the sequences that are held. -/
theorem Tag.slotType_stream
    (tag : Tag)
    (single : tag.repetitions.length ≤ 1) :
    tag.stream.slotType = (ValueType.event tag.eventType).sequences tag.repetitions.length := by
  obtain ⟨name, eventType, slot, repetitions⟩ := tag
  match repetitions, single with
  | [], _ => rfl
  | [_], _ => rfl

end Shapes

namespace Engine

/--
What a match holds under a tag is at most as deep as the repetitions around its declaration, and as
deep as these when the tag is bound inside them only.  With one repetition at most it then has the
declared type.
-/
theorem Run.conforms
    {schema : Schema}
    {expr : PatternExpr}
    {compiled : CompiledPattern}
    (success : CompiledPattern.compile schema expr = .ok compiled)
    {limit patience : Nat}
    {now : Int}
    {calls : List Call}
    {engine : Engine}
    (run : Run compiled limit patience now calls engine)
    (next : Call)
    {row : Row}
    (handedOut : row ∈ (engine.call next).2)
    {tag : Tag}
    (member : tag ∈ compiled.tags) :
    (Row.get row tag.slot).Nests tag.eventType tag.repetitions.length ∧
      (compiled.Gathers tag →
        ((ValueType.event tag.eventType).sequences tag.repetitions.length).Includes
            (Row.get row tag.slot) ∧
          (tag.repetitions.length ≤ 1 →
            tag.stream.slotType.Includes (Row.get row tag.slot))) := by
  have table := CompiledPattern.sound_of_compile success
  have atRoot : ∀ {fits : Nat → Value → Prop},
      Layered compiled tag fits → fits tag.repetitions.length (Row.get row tag.slot) := by
    intro fits layered
    rw [← CompiledPattern.depth_root table tag]
    exact run.handsOut table (.layered success member layered) next (fun _ => trivial) row handedOut
  refine ⟨atRoot (layered_nests compiled tag), fun gathers => ?_⟩
  have included := atRoot (layered_includes success member gathers)
  exact ⟨included, fun single => tag.slotType_stream single ▸ included⟩

/-- A pattern that collects two events, compiled. -/
def twoRounds : CompiledPattern :=
  ⟨[.repetition 1 2 (some 2) [0], .filter "Tick" (some 0) none], [⟨"t", "Tick", 0, [0]⟩]⟩

/-- Two rounds are held as a sequence of two events, as declared. -/
theorem Run.conforms_twoRounds :
    CompiledPattern.compile tickSchema (.repetition (.filter ⟨some "t", "Tick", none⟩) 2 (some 2)) =
        .ok twoRounds ∧
      (((Engine.start twoRounds 10 10 0).call (.event tick)).1.call (.event tick)).2 =
        [[Value.array [.event tick, .event tick]]] ∧
      (ValueType.array (.event "Tick")).Includes (.array [.event tick, .event tick]) := by
  have compiles : CompiledPattern.compile tickSchema
      (.repetition (.filter ⟨some "t", "Tick", none⟩) 2 (some 2)) = .ok twoRounds := rfl
  have run : Run twoRounds 10 10 0 [.event tick]
      ((Engine.start twoRounds 10 10 0).call (.event tick)).1 :=
    .call (.event tick) (.start rfl) (by cbv)
  have matched : (((Engine.start twoRounds 10 10 0).call (.event tick)).1.call (.event tick)).2 =
      [[Value.array [.event tick, .event tick]]] := by cbv
  have gathers : twoRounds.Gathers ⟨"t", "Tick", 0, [0]⟩ := by
    rintro number ⟨eventType, predicate, atNumber⟩ repetition collected
    cases List.mem_singleton.mp collected
    rcases number with _ | _ | number
    · cases atNumber
    · exact CompiledPattern.IsOperand.below ⟨_, rfl, List.mem_singleton.mpr rfl⟩
    · cases atNumber
  have handedOut : [Value.array [.event tick, .event tick]] ∈
      (((Engine.start twoRounds 10 10 0).call (.event tick)).1.call (.event tick)).2 :=
    matched ▸ List.mem_singleton.mpr rfl
  have member : (⟨"t", "Tick", 0, [0]⟩ : Tag) ∈ twoRounds.tags := List.mem_singleton.mpr rfl
  exact ⟨compiles, matched,
    ((Run.conforms compiles run (.event tick) handedOut member).2 gathers).2 (Nat.le_refl 1)⟩

/-- A pattern with one repetition inside another, compiled. -/
def nestedRounds : CompiledPattern :=
  ⟨[.repetition 1 1 (some 1) [0], .repetition 2 1 (some 1) [0], .filter "Tick" (some 0) none],
    [⟨"t", "Tick", 0, [0, 1]⟩]⟩

/-- The declared type knows one sequence, and a round inside a round is held in two. -/
theorem not_conforms_nestedRounds :
    CompiledPattern.compile tickSchema
        (.repetition (.repetition (.filter ⟨some "t", "Tick", none⟩) 1 (some 1)) 1 (some 1)) =
        .ok nestedRounds ∧
      nestedRounds.streams.map Stream.slotType = [.array (.event "Tick")] ∧
      ((Engine.start nestedRounds 10 10 0).call (.event tick)).2 = [[Value.array [.array [.event tick]]]] ∧
      ¬(ValueType.array (.event "Tick")).Includes (.array [.array [.event tick]]) := by
  refine ⟨rfl, rfl, by cbv, fun included => ?_⟩
  exact included (.array [.event tick]) (by simp)

/-- A pattern that binds its tag again behind the repetition that collects it, compiled. -/
def boundAgain : CompiledPattern :=
  ⟨[.sequence 1 3, .repetition 2 1 (some 1) [0], .filter "Tick" (some 0) none,
      .filter "Tick" (some 0) none],
    [⟨"t", "Tick", 0, [1]⟩]⟩

/-- The declared type is that of a sequence, and an event that is bound again is held alone. -/
theorem not_conforms_boundAgain :
    CompiledPattern.compile tickSchema
        (.sequence (.repetition (.filter ⟨some "t", "Tick", none⟩) 1 (some 1))
          (.filter ⟨some "t", "Tick", none⟩)) = .ok boundAgain ∧
      boundAgain.streams.map Stream.slotType = [.array (.event "Tick")] ∧
      (((Engine.start boundAgain 10 10 0).call (.event tick)).1.call (.event tick)).2 =
        [[Value.event tick]] ∧
      ¬(ValueType.array (.event "Tick")).Includes (.event tick) :=
  ⟨rfl, rfl, by cbv, id⟩

end Engine

end EventQuery
