import EventQuery.Proofs.Pattern.Scanning

namespace EventQuery

/-!
# Conjunctions of filters and negated filters

Compiled, such a conjunction has its watchers behind the root in written order, a negation before its
filter.  Operands with different tags write at different slots.
-/

/-- A filter, or the negation of one. -/
structure FilterOperand where
  spec : FilterSpec
  isNegated : Bool

namespace FilterOperand

/-- The pattern of an operand. -/
def expr (operand : FilterOperand) : PatternExpr :=
  if operand.isNegated then .negation (.filter operand.spec) else .filter operand.spec

end FilterOperand

namespace CompiledPattern

/-- An operand is compiled to a watcher. -/
structure WatchesFor
    (schema : Schema)
    (compiled : CompiledPattern)
    (operand : FilterOperand)
    (watcher : Watcher) : Prop where
  isNegated : watcher.isNegated = operand.isNegated
  filter : compileFilter schema compiled.tags [] operand.spec = .ok watcher.filter

/-- A pattern is the conjunction of its watchers. -/
structure Conjoins (compiled : CompiledPattern) (watchers : List Watcher) : Prop where
  root : compiled.nodes[rootNumber]? = some (.conjunction (watchers.map Watcher.number))
  filters : ∀ watcher ∈ watchers, compiled.nodes[watcher.leaf]? = some watcher.filter
  negations :
    ∀ watcher ∈ watchers, watcher.isNegated = true →
      compiled.nodes[watcher.number]? = some (.negation watcher.leaf)
  behindRoot : ∀ watcher ∈ watchers, rootNumber < watcher.number
  ascending : watchers.Pairwise fun earlier later => earlier.leaf < later.number
  slotsNodup : (watchers.filterMap Watcher.slot).Nodup

section Compile

variable {schema : Schema} {compiled : CompiledPattern} {operands : List FilterOperand}

/-- A filter is compiled to one of its type, at the slot of its tag. -/
private theorem exists_filter
    {tags : List Tag}
    {spec : FilterSpec}
    {node : PatternNode}
    (success : compileFilter schema tags [] spec = .ok node) :
    ∃ predicate, node =
      .filter spec.eventType ((spec.tag.bind (Tag.find? tags)).map Tag.slot) predicate := by
  unfold compileFilter at success
  cases hasPredicate : spec.predicate with
  | none =>
      rw [hasPredicate] at success
      cases success
      exact ⟨none, rfl⟩
  | some expr =>
      rw [hasPredicate] at success
      obtain ⟨bound, _, isNode⟩ := ok_of_bind success
      cases isNode
      exact ⟨some bound, rfl⟩

/-- What is placed of two lists of nodes, one behind the other, is placed of each. -/
private theorem placed_append
    {number : Nat}
    {first second : List PatternNode}
    (placed : ∀ place, place < (first ++ second).length →
      compiled.nodes[number + place]? = (first ++ second)[place]?) :
    (∀ place, place < first.length → compiled.nodes[number + place]? = first[place]?) ∧
      ∀ place, place < second.length →
        compiled.nodes[number + first.length + place]? = second[place]? := by
  rw [List.length_append] at placed
  constructor
  · intro place inFirst
    rw [placed place (by omega), List.getElem?_append_left inFirst]
  · intro place inSecond
    rw [Nat.add_assoc, placed (first.length + place) (by omega),
      List.getElem?_append_right (by omega), Nat.add_sub_cancel_left]

/-- One operand is compiled to a watcher. -/
private theorem exists_watcher
    {number : Nat}
    {operand : FilterOperand}
    {nodes : List PatternNode}
    (success : compileFrom schema compiled.tags number [] operand.expr = .ok nodes)
    (placed : ∀ place, place < nodes.length → compiled.nodes[number + place]? = nodes[place]?) :
    ∃ watcher : Watcher, compiled.WatchesFor schema operand watcher ∧ watcher.number = number ∧
      watcher.leaf < number + nodes.length ∧
      compiled.nodes[watcher.leaf]? = some watcher.filter ∧
      (watcher.isNegated = true → compiled.nodes[watcher.number]? = some (.negation watcher.leaf)) ∧
      watcher.slot = (operand.spec.tag.bind (Tag.find? compiled.tags)).map Tag.slot := by
  rw [FilterOperand.expr] at success
  cases isNegated : operand.isNegated with
  | true =>
      rw [isNegated, if_pos rfl, compileFrom, compileFrom] at success
      obtain ⟨inner, compiles, isNodes⟩ := ok_of_bind success
      obtain ⟨node, filters, isInner⟩ := ok_of_bind compiles
      cases isInner
      cases isNodes
      obtain ⟨predicate, rfl⟩ := exists_filter filters
      have atNegation := placed 0 (by simp)
      have atFilter := placed 1 (by simp)
      refine ⟨⟨number, true, operand.spec.eventType, _, predicate⟩, ⟨isNegated.symm, filters⟩, rfl,
        ?_, ?_, ?_, rfl⟩
      · simp [Watcher.leaf]
      · exact atFilter
      · exact fun _ => atNegation
  | false =>
      rw [isNegated, if_neg Bool.false_ne_true, compileFrom] at success
      obtain ⟨node, filters, isNodes⟩ := ok_of_bind success
      cases isNodes
      obtain ⟨predicate, rfl⟩ := exists_filter filters
      have atFilter := placed 0 (by simp)
      refine ⟨⟨number, false, operand.spec.eventType, _, predicate⟩, ⟨isNegated.symm, filters⟩, rfl,
        ?_, ?_, ?_, rfl⟩
      · simp [Watcher.leaf]
      · exact atFilter
      · exact fun negated => absurd negated Bool.false_ne_true

/-- Operands are compiled to watchers, one behind the other. -/
private theorem exists_watchers
    (compiled : CompiledPattern)
    {number : Nat}
    {numbers : List Nat}
    {nodes : List PatternNode}
    (success :
      compileAllFrom schema compiled.tags number [] (operands.map FilterOperand.expr) =
        .ok (numbers, nodes))
    (placed : ∀ place, place < nodes.length → compiled.nodes[number + place]? = nodes[place]?) :
    ∃ watchers : List Watcher, numbers = watchers.map Watcher.number ∧
      List.Forall₂ (compiled.WatchesFor schema) operands watchers ∧
      (∀ watcher ∈ watchers, number ≤ watcher.number ∧
        compiled.nodes[watcher.leaf]? = some watcher.filter ∧
        (watcher.isNegated = true →
          compiled.nodes[watcher.number]? = some (.negation watcher.leaf))) ∧
      watchers.Pairwise (fun earlier later => earlier.leaf < later.number) ∧
      watchers.filterMap Watcher.slot =
        (operands.filterMap fun operand => operand.spec.tag).filterMap fun name =>
          (Tag.find? compiled.tags name).map Tag.slot := by
  induction operands generalizing number numbers nodes with
  | nil =>
      cases success
      exact ⟨[], rfl, .nil, nofun, .nil, rfl⟩
  | cons operand rest inductionHypothesis =>
      rw [List.map_cons, compileAllFrom] at success
      obtain ⟨inner, compiles, afterFirst⟩ := ok_of_bind success
      obtain ⟨⟨later, others⟩, compilesRest, result⟩ := ok_of_bind afterFirst
      cases result
      obtain ⟨placedFirst, placedRest⟩ := placed_append placed
      obtain ⟨watcher, watchesFor, isNumber, inside, atFilter, atNegation, isSlot⟩ :=
        exists_watcher compiles placedFirst
      obtain ⟨watchers, isLater, watchesForRest, behind, ascending, slots⟩ :=
        inductionHypothesis compilesRest placedRest
      refine ⟨watcher :: watchers, by rw [List.map_cons, isLater, isNumber],
        .cons watchesFor watchesForRest, ?_, ?_, ?_⟩
      · refine List.forall_mem_cons.mpr ⟨⟨Nat.le_of_eq isNumber.symm, atFilter, atNegation⟩, ?_⟩
        intro other member
        obtain ⟨isBehind, atOther⟩ := behind other member
        exact ⟨by omega, atOther⟩
      · refine List.pairwise_cons.mpr ⟨fun other member => ?_, ascending⟩
        have isBehind := (behind other member).1
        omega
      · rw [List.filterMap_cons, isSlot, slots, List.filterMap_cons]
        cases operand.spec.tag with
        | none => rfl
        | some name =>
            rw [Option.bind_some, List.filterMap_cons]

/-- A conjunction of filters and negated filters with different tags has its watchers. -/
theorem exists_conjoins
    (success : compile schema (.conjunction (operands.map FilterOperand.expr)) = .ok compiled)
    (distinct : (operands.filterMap fun operand => operand.spec.tag).Nodup) :
    ∃ watchers, List.Forall₂ (compiled.WatchesFor schema) operands watchers ∧
      compiled.Conjoins watchers := by
  have compiles := success
  rw [compile_eq] at compiles
  obtain ⟨tags, _, afterTags⟩ := ok_of_bind compiles
  obtain ⟨nodes, compilesNodes, isCompiled⟩ := ok_of_bind afterTags
  cases isCompiled
  rw [compileFrom] at compilesNodes
  obtain ⟨_, _, checked⟩ := ok_of_bind compilesNodes
  obtain ⟨⟨numbers, inner⟩, compilesInner, isNodes⟩ := ok_of_bind checked
  cases isNodes
  have behindFirst : ∀ place, place < inner.length →
      (PatternNode.conjunction numbers :: inner)[0 + 1 + place]? = inner[place]? := by
    intro place _
    rw [Nat.zero_add, Nat.add_comm, List.getElem?_cons_succ]
  obtain ⟨watchers, isNumbers, watchesFor, placed, ascending, slots⟩ :=
    exists_watchers ⟨.conjunction numbers :: inner, tags⟩ compilesInner behindFirst
  refine ⟨watchers, watchesFor, ?_⟩
  constructor
  case root => rw [isNumbers]; rfl
  case filters => exact fun watcher member => (placed watcher member).2.1
  case negations => exact fun watcher member => (placed watcher member).2.2
  case behindRoot => exact fun watcher member => (placed watcher member).1
  case ascending => exact ascending
  case slotsNodup =>
      rw [slots]
      refine distinct.filterMap fun first second slot isFirst isSecond => ?_
      obtain ⟨firstTag, findsFirst, rfl⟩ := Option.map_eq_some_iff.mp isFirst
      obtain ⟨secondTag, findsSecond, sameSlot⟩ := Option.map_eq_some_iff.mp isSecond
      obtain ⟨firstMember, isFirstName⟩ := Tag.mem_of_find? findsFirst
      obtain ⟨secondMember, isSecondName⟩ := Tag.mem_of_find? findsSecond
      rw [← isFirstName, ← isSecondName, eq_of_slot_eq success secondMember firstMember sameSlot]

end Compile

end CompiledPattern

end EventQuery
