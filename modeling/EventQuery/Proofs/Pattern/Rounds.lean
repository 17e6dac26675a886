import EventQuery.Proofs.Pattern.Enclosing
import EventQuery.Proofs.Pattern.RowSlots
import EventQuery.Proofs.Pattern.WellFormed

namespace EventQuery

/-!
# Rounds of a repetition

A repetition that compiles asks for one round at least and for no more rounds than it allows, and
has each of its inner slots once.  So collecting the bindings of a round makes the sequence at each
inner slot longer by one value, and leaves all other slots alone.
-/

/-- A repetition asks for one round at least, and for no more rounds than it allows. -/
def PatternNode.HasBounds : PatternNode → Prop
  | .repetition _ least most _ => 0 < least ∧ ∀ greatest ∈ most, least ≤ greatest
  | _ => True

namespace CompiledPattern

section Bounds

variable {schema : Schema} {tags : List Tag}

private theorem bounds_of_checkBounds
    {least : Nat}
    {most : Option Nat}
    (checks : checkBounds least most = .ok ()) :
    0 < least ∧ ∀ greatest ∈ most, least ≤ greatest := by
  unfold checkBounds at checks
  by_cases isZero : least = 0
  · rw [if_pos isZero] at checks
    cases checks
  · rw [if_neg isZero] at checks
    refine ⟨Nat.pos_of_ne_zero isZero, fun greatest isMost => ?_⟩
    cases isMost
    by_cases inverted : greatest < least
    · simp only [if_pos inverted] at checks
      cases checks
    · exact Nat.le_of_not_lt inverted

mutual

private theorem hasBounds_of_compileFrom
    {number : Nat}
    {enclosing : List Nat}
    {nodes : List PatternNode} :
    (expr : PatternExpr) →
      compileFrom schema tags number enclosing expr = .ok nodes →
        ∀ node ∈ nodes, node.HasBounds
  | .filter spec, success => by
      rw [compileFrom, compileFilter] at success
      obtain ⟨node, filters, result⟩ := ok_of_bind success
      cases result
      cases predicate : spec.predicate with
      | none =>
          rw [predicate] at filters
          cases filters
          exact List.forall_mem_singleton.mpr trivial
      | some condition =>
          rw [predicate] at filters
          obtain ⟨bound, _, made⟩ := ok_of_bind filters
          cases made
          exact List.forall_mem_singleton.mpr trivial
  | .every child, success => by
      rw [compileFrom] at success
      obtain ⟨inner, compiles, result⟩ := ok_of_bind success
      cases result
      exact List.forall_mem_cons.mpr ⟨trivial, hasBounds_of_compileFrom child compiles⟩
  | .sequence left right, success => by
      rw [compileFrom] at success
      obtain ⟨lefts, compilesLeft, afterLeft⟩ := ok_of_bind success
      obtain ⟨rights, compilesRight, result⟩ := ok_of_bind afterLeft
      cases result
      exact List.forall_mem_cons.mpr ⟨trivial, List.forall_mem_append.mpr
        ⟨hasBounds_of_compileFrom left compilesLeft, hasBounds_of_compileFrom right compilesRight⟩⟩
  | .alternation children, success => by
      rw [compileFrom] at success
      obtain ⟨_, _, checked⟩ := ok_of_bind success
      obtain ⟨⟨numbers, inner⟩, compiles, result⟩ := ok_of_bind checked
      cases result
      exact List.forall_mem_cons.mpr ⟨trivial, hasBounds_of_compileAllFrom children compiles⟩
  | .conjunction children, success => by
      rw [compileFrom] at success
      obtain ⟨_, _, checked⟩ := ok_of_bind success
      obtain ⟨⟨numbers, inner⟩, compiles, result⟩ := ok_of_bind checked
      cases result
      exact List.forall_mem_cons.mpr ⟨trivial, hasBounds_of_compileAllFrom children compiles⟩
  | .repetition child least most, success => by
      rw [compileFrom] at success
      obtain ⟨_, checks, checked⟩ := ok_of_bind success
      obtain ⟨inner, compiles, result⟩ := ok_of_bind checked
      cases result
      exact List.forall_mem_cons.mpr
        ⟨bounds_of_checkBounds checks, hasBounds_of_compileFrom child compiles⟩
  | .negation child, success => by
      rw [compileFrom] at success
      obtain ⟨inner, compiles, result⟩ := ok_of_bind success
      cases result
      exact List.forall_mem_cons.mpr ⟨trivial, hasBounds_of_compileFrom child compiles⟩
  | .within child duration, success => by
      rw [compileFrom] at success
      obtain ⟨inner, compiles, result⟩ := ok_of_bind success
      cases result
      exact List.forall_mem_cons.mpr ⟨trivial, hasBounds_of_compileFrom child compiles⟩
  | .guarded child guard, success => by
      rw [compileFrom] at success
      obtain ⟨bound, _, binds⟩ := ok_of_bind success
      obtain ⟨inner, compiles, result⟩ := ok_of_bind binds
      cases result
      exact List.forall_mem_cons.mpr ⟨trivial, hasBounds_of_compileFrom child compiles⟩
  | .timer duration, success => by
      rw [compileFrom] at success
      cases success
      exact List.forall_mem_singleton.mpr trivial

private theorem hasBounds_of_compileAllFrom
    {number : Nat}
    {enclosing numbers : List Nat}
    {nodes : List PatternNode} :
    (children : List PatternExpr) →
      compileAllFrom schema tags number enclosing children = .ok (numbers, nodes) →
        ∀ node ∈ nodes, node.HasBounds
  | [], success => by
      rw [compileAllFrom] at success
      cases success
      exact nofun
  | child :: rest, success => by
      rw [compileAllFrom] at success
      obtain ⟨inner, compiles, afterFirst⟩ := ok_of_bind success
      obtain ⟨⟨later, others⟩, compilesRest, result⟩ := ok_of_bind afterFirst
      cases result
      exact List.forall_mem_append.mpr
        ⟨hasBounds_of_compileFrom child compiles, hasBounds_of_compileAllFrom rest compilesRest⟩

end

end Bounds

section Compile

variable {schema : Schema} {expr : PatternExpr} {compiled : CompiledPattern}
  {number child least : Nat} {most : Option Nat} {innerSlots : List Nat}

theorem bounds_of_compile
    (success : compile schema expr = .ok compiled)
    (atNumber : compiled.nodes[number]? = some (.repetition child least most innerSlots)) :
    0 < least ∧ ∀ greatest ∈ most, least ≤ greatest := by
  rw [compile_eq] at success
  obtain ⟨tags, _, afterTags⟩ := ok_of_bind success
  obtain ⟨nodes, compiles, result⟩ := ok_of_bind afterTags
  cases result
  exact hasBounds_of_compileFrom expr compiles _ (List.mem_of_getElem? atNumber)

/-- A repetition has each of its inner slots once. -/
theorem nodup_innerSlots
    (success : compile schema expr = .ok compiled)
    (atNumber : compiled.nodes[number]? = some (.repetition child least most innerSlots)) :
    innerSlots.Nodup :=
  (ascending_innerSlots success atNumber).imp Nat.ne_of_lt

end Compile

end CompiledPattern

/-! ## Collecting -/

/-- A row has at some slots the sequences of what other rows have there, and is else as at a start. -/
structure Row.Accumulates (slots : List Nat) (start : Row) (founds : List Row) (row : Row) :
    Prop where
  inside : ∀ slot ∈ slots, Row.get row slot = .array (founds.map fun found => Row.get found slot)
  outside : ∀ slot, slot ∉ slots → Row.get row slot = Row.get start slot

section Collect

variable {slots : List Nat} {start row : Row} {founds : List Row}

theorem Row.get_set_self
    {slot : Nat}
    (inRange : slot < row.length)
    (value : Value) :
    Row.get (row.set slot value) slot = value := by
  simp [Row.get, inRange]

/-- A repetition begins with an empty sequence at each inner slot. -/
theorem get_withEmptySequences_of_mem
    {slot : Nat}
    (member : slot ∈ slots)
    (inRange : slot < start.length) :
    Row.get (Progress.withEmptySequences start slots) slot = .array [] := by
  induction slots generalizing start with
  | nil => cases member
  | cons first rest inductionHypothesis =>
      rw [Progress.withEmptySequences, List.foldl_cons, ← Progress.withEmptySequences]
      by_cases inRest : slot ∈ rest
      · exact inductionHypothesis inRest (by rwa [List.length_set])
      · obtain rfl := (List.mem_cons.mp member).resolve_right inRest
        rw [(get_withEmptySequences _ rest slot).resolve_right fun inside => inRest inside.1]
        exact Row.get_set_self inRange _

/-- A repetition has accumulated nothing when it begins. -/
theorem accumulates_withEmptySequences
    (inRange : ∀ slot ∈ slots, slot < start.length) :
    Row.Accumulates slots start [] (Progress.withEmptySequences start slots) := by
  constructor
  · intro slot member
    exact get_withEmptySequences_of_mem member (inRange slot member)
  · intro slot outside
    exact (get_withEmptySequences start slots slot).resolve_right fun inside => outside inside.1

/-- Collecting a round leaves a slot that is not an inner one alone. -/
theorem get_collect_of_not_mem
    {slot : Nat}
    (outside : slot ∉ slots)
    (collected found : Row) :
    Row.get (Engine.collect collected found slots) slot = Row.get collected slot := by
  rw [collect_eq_foldl]
  induction slots generalizing collected with
  | nil => rfl
  | cons first rest inductionHypothesis =>
      obtain ⟨notFirst, notRest⟩ := not_or.mp (List.mem_cons.not.mp outside)
      rw [List.foldl_cons, inductionHypothesis notRest, collectAt]
      split
      next => exact Row.get_set_of_ne _ (Ne.symm notFirst) _
      next => rfl

/-- Collecting a round makes the sequence at an inner slot longer by one value. -/
theorem get_collect_of_mem
    {slot : Nat}
    (distinct : slots.Nodup)
    (member : slot ∈ slots)
    {collected : Row}
    (inRange : slot < collected.length)
    {items : List Value}
    (isArray : Row.get collected slot = .array items)
    (found : Row) :
    Row.get (Engine.collect collected found slots) slot =
      .array (items ++ [Row.get found slot]) := by
  induction slots generalizing collected with
  | nil => cases member
  | cons first rest inductionHypothesis =>
      obtain ⟨notRest, distinctRest⟩ := List.nodup_cons.mp distinct
      rw [collect_eq_foldl, List.foldl_cons, ← collect_eq_foldl]
      rcases List.mem_cons.mp member with rfl | inRest
      · rw [get_collect_of_not_mem notRest, collectAt, isArray]
        exact Row.get_set_self inRange _
      · have different : first ≠ slot := fun same => notRest (same ▸ inRest)
        refine inductionHypothesis distinctRest inRest ?_ ?_
        · rw [collectAt]
          split
          next => rwa [List.length_set]
          next => exact inRange
        · rw [collectAt]
          split
          next => rw [Row.get_set_of_ne _ different, isArray]
          next => exact isArray

/-- Collecting a round puts what it has found behind what was found before. -/
theorem Row.Accumulates.collect
    (accumulates : Row.Accumulates slots start founds row)
    (distinct : slots.Nodup)
    (inRange : ∀ slot ∈ slots, slot < row.length)
    (found : Row) :
    Row.Accumulates slots start (founds ++ [found]) (Engine.collect row found slots) := by
  constructor
  · intro slot member
    rw [get_collect_of_mem distinct member (inRange slot member) (accumulates.inside slot member),
      List.map_append, List.map_singleton]
  · intro slot outside
    rw [get_collect_of_not_mem outside, accumulates.outside slot outside]

end Collect

/-! ## Rows outside -/

/-- What a repetition collects has one slot for each tag, and outside its inner slots it is as at its
start. -/
def RowLaw.outside (compiled : CompiledPattern) : RowLaw compiled where
  start := (RowLaw.width compiled).start
  yield := (RowLaw.width compiled).yield
  rounds := fun now number start count collected =>
    (RowLaw.width compiled).rounds now number start count collected ∧
      ∀ child least most innerSlots,
        compiled.nodes[number]? = some (.repetition child least most innerSlots) →
          ∀ slot, slot ∉ innerSlots → Row.get collected slot = Row.get start slot
  admits := (RowLaw.width compiled).admits
  start_mono := (RowLaw.width compiled).start_mono
  yield_mono := (RowLaw.width compiled).yield_mono
  rounds_mono := fun order rounds => ⟨(RowLaw.width compiled).rounds_mono order rounds.1, rounds.2⟩
  start_blank := (RowLaw.width compiled).start_blank
  yield_filter := (RowLaw.width compiled).yield_filter
  yield_timer := (RowLaw.width compiled).yield_timer
  yield_negation := (RowLaw.width compiled).yield_negation
  start_opening := (RowLaw.width compiled).start_opening
  yield_passing := (RowLaw.width compiled).yield_passing
  start_right := (RowLaw.width compiled).start_right
  yield_right := (RowLaw.width compiled).yield_right
  yield_merge := (RowLaw.width compiled).yield_merge
  rounds_initial := by
    intro now number child least most innerSlots row atNumber starts
    refine ⟨(RowLaw.width compiled).rounds_initial atNumber starts, ?_⟩
    intro _ _ _ _ atSame slot outside
    cases atNumber.symm.trans atSame
    exact (get_withEmptySequences row innerSlots slot).resolve_right
      fun inside => outside inside.1
  start_round := fun atNumber starts rounds =>
    (RowLaw.width compiled).start_round atNumber starts rounds.1
  rounds_collect := by
    intro now number child least earlier count most innerSlots row early collected found atNumber
      starts order earlyRounds rounds yields
    refine ⟨(RowLaw.width compiled).rounds_collect atNumber starts order earlyRounds.1 rounds.1
      yields, ?_⟩
    intro _ _ _ _ atSame slot outside
    cases atNumber.symm.trans atSame
    rw [get_collect_of_not_mem outside, rounds.2 _ _ _ _ atNumber slot outside]
  yield_rounds := fun atNumber starts rounds =>
    (RowLaw.width compiled).yield_rounds atNumber starts rounds.1

end EventQuery
