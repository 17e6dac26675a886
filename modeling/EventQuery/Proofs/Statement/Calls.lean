import EventQuery.Processor
import EventQuery.Proofs.Statement.Steady

namespace EventQuery

/-!
# Which aggregation a call reads

The aggregation calls of a select list are the heads of its chains that name an aggregation
function.  Of calls with one written form only the first is checked and has a slot, and every call
of that form reads it.  The written form carries no parentheses, so that calls with different
arguments may have one form and one slot.
-/

namespace Expr

mutual

/-- The first segments of all chains in an expression, in order. -/
def heads : Expr → List (Segment Expr)
  | .literal _ => []
  | .wildcard => []
  | .chain [] => []
  | .chain (head :: rest) => head :: (headsOfSegment head ++ headsOfSegments rest)
  | .binary _ left right => heads left ++ heads right
  | .not operand => heads operand
  | .neg operand => heads operand

/-- The first segments of all chains in the arguments of a segment. -/
def headsOfSegment : Segment Expr → List (Segment Expr)
  | .property _ _ => []
  | .call _ arguments _ => headsOfAll arguments

/-- The first segments of all chains in the arguments of several segments. -/
def headsOfSegments : List (Segment Expr) → List (Segment Expr)
  | [] => []
  | segment :: rest => headsOfSegment segment ++ headsOfSegments rest

/-- The first segments of all chains in several expressions. -/
def headsOfAll : List Expr → List (Segment Expr)
  | [] => []
  | expr :: rest => heads expr ++ headsOfAll rest

end

end Expr

namespace AggregateCatalog

variable {catalog : AggregateCatalog}

/-- What is found in an expression are its heads that are calls; inside a call there are none. -/
structure Finds (catalog : AggregateCatalog) (inside : Bool) (heads found : List (Segment Expr)) :
    Prop where
  calls : found = heads.filter catalog.calls
  outermost : inside = true → found = []

namespace Finds

theorem nil {inside : Bool} : catalog.Finds inside [] [] := ⟨rfl, fun _ => rfl⟩

/-- What is found in two parts one after another is what is found in both. -/
theorem append
    {inside : Bool}
    {heads otherHeads found otherFound : List (Segment Expr)}
    (first : catalog.Finds inside heads found)
    (second : catalog.Finds inside otherHeads otherFound) :
    catalog.Finds inside (heads ++ otherHeads) (found ++ otherFound) where
  calls := by rw [List.filter_append, first.calls, second.calls]
  outermost := fun isInside => by rw [first.outermost isInside, second.outermost isInside]; rfl

end Finds

mutual

/-- The calls that are found are the heads of chains that name an aggregation function. -/
theorem finds_callsIn
    (expr : Expr)
    {inside : Bool}
    {found : List (Segment Expr)}
    (outcome : catalog.callsIn inside expr = .ok found) :
    catalog.Finds inside expr.heads found := by
  match expr with
  | .literal _ | .wildcard | .chain [] =>
      cases outcome
      exact .nil
  | .chain (head :: rest) =>
      rw [callsIn] at outcome
      rw [Expr.heads, ← List.cons_append]
      split at outcome
      next isCall =>
          dsimp only at outcome
          split at outcome
          next => cases outcome
          next notInside =>
              obtain ⟨nested, areNested, outcome⟩ := bind_eq_ok_iff.mp outcome
              obtain ⟨_, isHead, outcome⟩ := bind_eq_ok_iff.mp outcome
              obtain ⟨others, areOthers, outcome⟩ := bind_eq_ok_iff.mp outcome
              cases isHead
              cases outcome
              -- No call is found among the arguments of a call.
              have inner := finds_callsInSegment head areNested
              have own : catalog.Finds inside (head :: Expr.headsOfSegment head) [head] := by
                refine ⟨?_, fun isInside => absurd isInside notInside⟩
                rw [List.filter_cons_of_pos isCall, ← inner.calls, inner.outermost rfl]
              exact own.append (finds_callsInSegments rest areOthers)
      next notCall =>
          obtain ⟨first, isFirst, outcome⟩ := bind_eq_ok_iff.mp outcome
          obtain ⟨others, areOthers, outcome⟩ := bind_eq_ok_iff.mp outcome
          cases outcome
          have inner := finds_callsInSegment head isFirst
          have own : catalog.Finds inside (head :: Expr.headsOfSegment head) first :=
            ⟨by rw [List.filter_cons_of_neg notCall, inner.calls], inner.outermost⟩
          exact own.append (finds_callsInSegments rest areOthers)
  | .binary _ left right =>
      obtain ⟨first, isFirst, outcome⟩ := bind_eq_ok_iff.mp outcome
      obtain ⟨second, isSecond, outcome⟩ := bind_eq_ok_iff.mp outcome
      cases outcome
      exact (finds_callsIn left isFirst).append (finds_callsIn right isSecond)
  | .not operand => exact finds_callsIn operand outcome
  | .neg operand => exact finds_callsIn operand outcome

theorem finds_callsInSegment
    (segment : Segment Expr)
    {inside : Bool}
    {found : List (Segment Expr)}
    (outcome : catalog.callsInSegment inside segment = .ok found) :
    catalog.Finds inside (Expr.headsOfSegment segment) found := by
  match segment with
  | .property _ _ =>
      cases outcome
      exact .nil
  | .call _ arguments _ => exact finds_callsInAll arguments outcome

theorem finds_callsInSegments
    (segments : List (Segment Expr))
    {inside : Bool}
    {found : List (Segment Expr)}
    (outcome : catalog.callsInSegments inside segments = .ok found) :
    catalog.Finds inside (Expr.headsOfSegments segments) found := by
  match segments with
  | [] =>
      cases outcome
      exact .nil
  | segment :: rest =>
      obtain ⟨first, isFirst, outcome⟩ := bind_eq_ok_iff.mp outcome
      obtain ⟨others, areOthers, outcome⟩ := bind_eq_ok_iff.mp outcome
      cases outcome
      exact (finds_callsInSegment segment isFirst).append (finds_callsInSegments rest areOthers)

theorem finds_callsInAll
    (exprs : List Expr)
    {inside : Bool}
    {found : List (Segment Expr)}
    (outcome : catalog.callsInAll inside exprs = .ok found) :
    catalog.Finds inside (Expr.headsOfAll exprs) found := by
  match exprs with
  | [] =>
      cases outcome
      exact .nil
  | expr :: rest =>
      obtain ⟨first, isFirst, outcome⟩ := bind_eq_ok_iff.mp outcome
      obtain ⟨others, areOthers, outcome⟩ := bind_eq_ok_iff.mp outcome
      cases outcome
      exact (finds_callsIn expr isFirst).append (finds_callsInAll rest areOthers)

end

/-- Whether a call has a written form. -/
def writtenAs (text : String) (call : Segment Expr) : Bool := Expr.aggregateText call == text

theorem text_eq_of_find?
    {calls : List (Segment Expr)}
    {text : String}
    {call : Segment Expr}
    (found : calls.find? (writtenAs text) = some call) :
    Expr.aggregateText call = text := by
  have isText : writtenAs text call = true := List.find?_some found
  exact eq_of_beq isText

/-- Keep a call unless one of its written form is kept already. -/
def keepFirst (kept : List (Segment Expr)) (call : Segment Expr) : List (Segment Expr) :=
  if kept.any fun other => Expr.aggregateText other == Expr.aggregateText call then kept
  else kept ++ [call]

theorem find?_foldl_keepFirst
    (calls kept : List (Segment Expr))
    (text : String) :
    (calls.foldl keepFirst kept).find? (writtenAs text) =
      (kept ++ calls).find? (writtenAs text) := by
  induction calls generalizing kept with
  | nil =>
      rw [List.append_nil]
      rfl
  | cons call rest inductionHypothesis =>
      rw [List.foldl_cons, inductionHypothesis, keepFirst]
      split
      next isKept =>
          rw [List.find?_append, List.find?_append]
          by_cases isText : writtenAs text call = true
          · obtain ⟨other, member, same⟩ := List.any_eq_true.mp isKept
            have isOther : writtenAs text other = true := by
              rw [writtenAs, eq_of_beq same]
              exact isText
            have present := List.find?_isSome.mpr ⟨other, member, isOther⟩
            rw [Option.or_of_isSome present, Option.or_of_isSome present]
          · rw [List.find?_cons_of_neg isText]
      next =>
          rw [List.append_assoc]
          rfl

/-- Of the calls of one written form the first is kept, and none else. -/
theorem find?_distinctCalls
    (calls : List (Segment Expr))
    (text : String) :
    (distinctCalls calls).find? (writtenAs text) = calls.find? (writtenAs text) :=
  find?_foldl_keepFirst calls [] text

/-- Calls that are kept have different written forms. -/
theorem nodup_distinctCalls
    (calls : List (Segment Expr)) :
    ((distinctCalls calls).map Expr.aggregateText).Nodup := by
  have none : (([] : List (Segment Expr)).map Expr.aggregateText).Nodup := List.nodup_nil
  refine List.foldlRecOn (motive := fun kept => (kept.map Expr.aggregateText).Nodup) calls
    keepFirst none fun kept nodup call _ => ?_
  rw [keepFirst]
  split
  next => exact nodup
  next notKept =>
      rw [List.map_append, List.map_singleton]
      refine List.nodup_append.mpr ⟨nodup, List.pairwise_singleton _ _, ?_⟩
      intro text member other isCall same
      obtain ⟨earlier, isKept, isText⟩ := List.mem_map.mp member
      rw [List.mem_singleton.mp isCall] at same
      exact notKept (List.any_eq_true.mpr ⟨earlier, isKept, beq_iff_eq.mpr (isText.trans same)⟩)

/-- Calls that are kept are calls of before. -/
theorem mem_of_mem_distinctCalls
    {calls : List (Segment Expr)}
    {call : Segment Expr}
    (member : call ∈ distinctCalls calls) :
    call ∈ calls := by
  refine List.foldlRecOn (motive := fun kept => call ∈ kept → call ∈ calls) calls keepFirst
    (absurd · List.not_mem_nil) (fun kept earlier next isNext isKept => ?_) member
  rw [keepFirst] at isKept
  split at isKept
  next => exact earlier isKept
  next =>
      rcases List.mem_append.mp isKept with before | isLast
      · exact earlier before
      · exact List.mem_singleton.mp isLast ▸ isNext

end AggregateCatalog

namespace Plan

section Checked

variable {scope : Scope} {catalog : AggregateCatalog} {windowed : Bool} {width : Nat}

/-- Where lists are related one by one, each item is related to the one at its place. -/
theorem exists_getElem?_of_forall₂
    {Item Other : Type}
    {related : Item → Other → Prop}
    {items : List Item}
    {others : List Other}
    {position : Nat}
    {item : Item}
    (each : List.Forall₂ related items others)
    (atPosition : items[position]? = some item) :
    ∃ other, others[position]? = some other ∧ related item other := by
  induction each generalizing position with
  | nil => cases atPosition
  | cons first _ inductionHypothesis =>
      cases position with
      | zero =>
          cases atPosition
          exact ⟨_, rfl, first⟩
      | succ position => exact inductionHypothesis atPosition

/-- An aggregation is checked from a call at a place and has its written form and slot. -/
structure CheckedFrom (scope : Scope) (catalog : AggregateCatalog) (windowed : Bool) (width : Nat)
    (placed : Segment Expr × Nat) (aggregate : AggregateSlot) : Prop where
  text : aggregate.text = Expr.aggregateText placed.1
  slot : aggregate.slot = width + placed.2
  checked : planCall scope catalog windowed placed.2 placed.1 = .ok aggregate.handler

theorem checkedFrom_of_planCalls
    {calls : List (Segment Expr)}
    {aggregates : List AggregateSlot}
    (outcome : planCalls scope catalog windowed width calls = .ok aggregates) :
    List.Forall₂ (CheckedFrom scope catalog windowed width) calls.zipIdx aggregates := by
  refine (forall₂_of_mapM outcome).imp fun (call, position) aggregate planned => ?_
  obtain ⟨handler, isHandler, planned⟩ := bind_eq_ok_iff.mp planned
  cases planned
  exact ⟨rfl, rfl, isHandler⟩

/-- The aggregations have the written forms of their calls. -/
theorem map_text_of_planCalls
    {calls : List (Segment Expr)}
    {aggregates : List AggregateSlot}
    (outcome : planCalls scope catalog windowed width calls = .ok aggregates) :
    aggregates.map AggregateSlot.text = calls.map Expr.aggregateText := by
  have same : List.Forall₂ (· = ·) (calls.zipIdx.map fun placed => Expr.aggregateText placed.1)
      (aggregates.map AggregateSlot.text) :=
    List.forall₂_map_left_iff.mpr (List.forall₂_map_right_iff.mpr
      ((checkedFrom_of_planCalls outcome).imp fun _ _ checked => checked.text.symm))
  rw [List.forall₂_eq_eq_eq] at same
  rw [← same, ← List.zipIdx_map_fst 0 calls, List.map_map, List.zipIdx_map_fst]
  rfl

/-- What a call is checked for does not depend on the element that is picked from its result. -/
theorem planCall_withIndex
    (position : Nat)
    (call : Segment Expr)
    (index : Option Nat) :
    planCall scope catalog windowed position (call.withIndex index) =
      planCall scope catalog windowed position call := by
  cases call <;> rfl

end Checked

section Selected

variable {scope : Scope} {aggregates : List AggregateSlot}

theorem aggregate?_addAggregate
    (scope : Scope)
    (call text : String)
    (slot : Nat)
    (type : ValueType) :
    (scope.addAggregate call slot type).aggregate? text =
      if call == text then some (slot, type) else scope.aggregate? text :=
  Table.find?_put

theorem aggregate?_selectScope_of_not_mem
    {text : String}
    (absent : text ∉ aggregates.map AggregateSlot.text) :
    (selectScope scope aggregates).aggregate? text = scope.aggregate? text := by
  induction aggregates generalizing scope with
  | nil => rfl
  | cons aggregate rest inductionHypothesis =>
      rw [List.map_cons, List.mem_cons, not_or] at absent
      refine (inductionHypothesis absent.2).trans ?_
      rw [aggregate?_addAggregate, if_neg (by simpa using Ne.symm absent.1)]

/-- The select list knows the slot and the type of each aggregation by its written form. -/
theorem aggregate?_selectScope
    {aggregate : AggregateSlot}
    (nodup : (aggregates.map AggregateSlot.text).Nodup)
    (member : aggregate ∈ aggregates) :
    (selectScope scope aggregates).aggregate? aggregate.text =
      some (aggregate.slot, aggregate.handler.returns) := by
  induction aggregates generalizing scope with
  | nil => cases member
  | cons first rest inductionHypothesis =>
      rw [List.map_cons, List.nodup_cons] at nodup
      rcases List.mem_cons.mp member with rfl | later
      · refine (aggregate?_selectScope_of_not_mem nodup.1).trans ?_
        rw [aggregate?_addAggregate, if_pos (beq_self_eq_true _)]
      · exact inductionHypothesis nodup.2 later

end Selected

end Plan

namespace Scope

/-- A segment keeps its form when its arguments are bound. -/
theorem segment_bindSegmentArguments
    (scope : Scope)
    (segment : Segment Expr) :
    (scope.bindSegmentArguments segment).segment = segment := by
  cases segment <;> rfl

/-- A chain is bound on from what its first segment is bound to. -/
def bindFrom (scope : Scope) (node : Node) (head : Segment Expr) (rest : List (Segment Expr)) :
    Except BindingError Node := do
  let picked ← node.pick head.index? head.name
  scope.bindRest none picked (Expr.segmentText head) (scope.bindSegments rest)

/-- A chain that starts with a known aggregation call goes on from the slot of its result. -/
theorem bind_chain_of_aggregate
    {scope : Scope}
    {call : Segment Expr}
    {slot : Nat}
    {type : ValueType}
    (isCall : call.isCall = true)
    (known : scope.aggregate? (Expr.aggregateText call) = some (slot, type))
    (rest : List (Segment Expr)) :
    scope.bind (.chain (call :: rest)) = scope.bindFrom (.slot slot type) call rest := by
  have same := scope.segment_bindSegmentArguments call
  rw [bind, bindSegments, bindChain, bindRoot, same, if_pos isCall, bindRootCall, same, known,
    BoundSegment.text, same, bindFrom]
  dsimp only
  cases (Node.slot slot type).pick call.index? call.name <;> rfl

end Scope

namespace Plan

/-- The result of the aggregation at a place stands behind the slots of the source. -/
theorem get_extendRow
    (plan : Plan)
    (row results : Row)
    (position : Nat) :
    (plan.extendRow row results).get (plan.width + position) = results.get position := by
  have behind : (plan.extendRow row results)[plan.width + position]? = results[position]? := by
    rw [extendRow, List.getElem?_append_right (by simp), List.length_map, List.length_range,
      Nat.add_sub_cancel_left]
  rw [Row.get, List.getD_eq_getElem?_getD, behind, Row.get, List.getD_eq_getElem?_getD]

/--
A call reads the result of an aggregation: the aggregation is known by the written form of the call,
its result stands at its slot, and every chain of the select list that starts with the call goes on
from this slot.
-/
structure Reads (plan : Plan) (scope : Scope) (call : Segment Expr) (position : Nat)
    (aggregate : AggregateSlot) : Prop where
  held : plan.aggregates[position]? = some aggregate
  text : aggregate.text = Expr.aggregateText call
  slot : aggregate.slot = plan.width + position
  result :
    ∀ row results : Row, (plan.extendRow row results).get aggregate.slot = results.get position
  bound :
    ∀ rest, (selectScope scope plan.aggregates).bind (.chain (call :: rest)) =
      (selectScope scope plan.aggregates).bindFrom
        (.slot aggregate.slot aggregate.handler.returns) call rest

section Calls

variable {schema : Schema} {catalog : AggregateCatalog} {spec : StatementSpec} {plan : Plan}
  {scope : Scope}

/-- The aggregation calls of a select list, in order. -/
def aggregationCalls (catalog : AggregateCatalog) (spec : StatementSpec) : List (Segment Expr) :=
  (Expr.headsOfAll spec.selected).filter catalog.calls

/-- How the aggregations and the columns of a plan come about. -/
theorem aggregates_of_ofSpec
    (planned : ofSpec schema catalog spec = .ok plan) :
    ∃ scope, planSource schema spec.source = .ok (plan.source, scope) ∧
      planCalls scope catalog plan.window.isSome plan.width
        (AggregateCatalog.distinctCalls (aggregationCalls catalog spec)) = .ok plan.aggregates ∧
      planColumns plan.source (selectScope scope plan.aggregates) spec.select =
        .ok plan.columns := by
  obtain ⟨⟨source, scope⟩, isSource, planned⟩ := bind_eq_ok_iff.mp planned
  obtain ⟨_, _, planned⟩ := bind_eq_ok_iff.mp planned
  obtain ⟨_, _, planned⟩ := bind_eq_ok_iff.mp planned
  obtain ⟨calls, areCalls, planned⟩ := bind_eq_ok_iff.mp planned
  obtain ⟨aggregates, areAggregates, planned⟩ := bind_eq_ok_iff.mp planned
  obtain ⟨columns, areColumns, planned⟩ := bind_eq_ok_iff.mp planned
  cases planned
  refine ⟨scope, bound_eq_ok_iff.mp isSource, ?_, bound_eq_ok_iff.mp areColumns⟩
  rw [aggregationCalls, ← (AggregateCatalog.finds_callsInAll _ areCalls).calls]
  exact areAggregates

/-- The written forms of the aggregations of a plan are different. -/
theorem nodup_text_of_ofSpec
    (planned : ofSpec schema catalog spec = .ok plan) :
    (plan.aggregates.map AggregateSlot.text).Nodup := by
  obtain ⟨_, _, areAggregates, _⟩ := aggregates_of_ofSpec planned
  rw [map_text_of_planCalls areAggregates]
  exact AggregateCatalog.nodup_distinctCalls _

/-- Calls read one slot exactly when they have one written form. -/
theorem Reads.slot_eq_iff
    {call other : Segment Expr}
    {position otherPosition : Nat}
    {aggregate otherAggregate : AggregateSlot}
    (nodup : (plan.aggregates.map AggregateSlot.text).Nodup)
    (reads : plan.Reads scope call position aggregate)
    (otherReads : plan.Reads scope other otherPosition otherAggregate) :
    aggregate.slot = otherAggregate.slot ↔
      Expr.aggregateText call = Expr.aggregateText other := by
  rw [← reads.text, ← otherReads.text, reads.slot, otherReads.slot, Nat.add_left_cancel_iff]
  constructor
  · rintro rfl
    exact congrArg AggregateSlot.text (Option.some.inj (reads.held.symm.trans otherReads.held))
  · intro same
    have inside : position < (plan.aggregates.map AggregateSlot.text).length := by
      rw [List.length_map]
      exact (List.getElem?_eq_some_iff.mp reads.held).1
    refine (List.getElem?_inj inside nodup).mp ?_
    rw [List.getElem?_map, List.getElem?_map, reads.held, otherReads.held, Option.map_some,
      Option.map_some, same]

/-- A call reads the aggregation that was checked from a call of its written form. -/
theorem Reads.of_checked
    {first call : Segment Expr}
    {windowed : Bool}
    {position : Nat}
    {aggregate : AggregateSlot}
    (nodup : (plan.aggregates.map AggregateSlot.text).Nodup)
    (held : plan.aggregates[position]? = some aggregate)
    (checked : CheckedFrom scope catalog windowed plan.width (first, position) aggregate)
    (sameText : Expr.aggregateText first = Expr.aggregateText call)
    (isCall : call.isCall = true) :
    plan.Reads scope call position aggregate := by
  have text : aggregate.text = Expr.aggregateText call := checked.text.trans sameText
  have known : (selectScope scope plan.aggregates).aggregate? aggregate.text =
      some (aggregate.slot, aggregate.handler.returns) :=
    aggregate?_selectScope nodup (List.mem_of_getElem? held)
  exact {
    held := held
    text := text
    slot := checked.slot
    result := fun row results => by rw [checked.slot, get_extendRow]
    bound := Scope.bind_chain_of_aggregate isCall (text ▸ known) }

/-- Each call that is planned has the aggregation that was checked from it. -/
theorem checkedFrom_of_mem
    {windowed : Bool}
    {width : Nat}
    {calls : List (Segment Expr)}
    {aggregates : List AggregateSlot}
    (areAggregates : planCalls scope catalog windowed width calls = .ok aggregates)
    {call : Segment Expr}
    (member : call ∈ calls) :
    ∃ position aggregate, aggregates[position]? = some aggregate ∧
      CheckedFrom scope catalog windowed width (call, position) aggregate := by
  obtain ⟨position, atPosition⟩ := List.getElem?_of_mem member
  have placed : calls.zipIdx[position]? = some (call, position) := by
    rw [List.getElem?_zipIdx, atPosition, Option.map_some, Nat.zero_add]
  obtain ⟨aggregate, held, checked⟩ :=
    exists_getElem?_of_forall₂ (checkedFrom_of_planCalls areAggregates) placed
  exact ⟨position, aggregate, held, checked⟩

/-- An aggregation call reads the aggregation that was checked from the first of its form. -/
theorem reads_of_planCalls
    {calls : List (Segment Expr)}
    (areAggregates :
      planCalls scope catalog plan.window.isSome plan.width
        (AggregateCatalog.distinctCalls calls) = .ok plan.aggregates)
    (areCalls : ∀ call ∈ calls, call.isCall = true) :
    ∀ call ∈ calls, ∃ first position aggregate,
      calls.find? (AggregateCatalog.writtenAs (Expr.aggregateText call)) = some first ∧
        plan.Reads scope call position aggregate ∧
        planCall scope catalog plan.window.isSome position first = .ok aggregate.handler := by
  intro call member
  have present : (calls.find? (AggregateCatalog.writtenAs (Expr.aggregateText call))).isSome :=
    List.find?_isSome.mpr ⟨call, member, beq_self_eq_true _⟩
  obtain ⟨first, isFirst⟩ := Option.isSome_iff_exists.mp present
  have kept := (AggregateCatalog.find?_distinctCalls calls (Expr.aggregateText call)).trans isFirst
  obtain ⟨position, aggregate, held, checked⟩ :=
    checkedFrom_of_mem areAggregates (List.mem_of_find?_eq_some kept)
  have nodup : (plan.aggregates.map AggregateSlot.text).Nodup := by
    rw [map_text_of_planCalls areAggregates]
    exact AggregateCatalog.nodup_distinctCalls calls
  refine ⟨first, position, aggregate, isFirst, ?_, checked.checked⟩
  exact .of_checked nodup held checked (AggregateCatalog.text_eq_of_find? isFirst)
    (areCalls call member)

/--
Each aggregation call of a select list reads the aggregation that was checked from the first call of
its written form, with the arguments of that one.  Calls read one slot exactly when they have one
written form.  So each call reads an aggregation that was checked from its own arguments when calls
of one written form are the same call.
-/
theorem calls_read_first_of_text
    (planned : ofSpec schema catalog spec = .ok plan) :
    ∃ scope, planSource schema spec.source = .ok (plan.source, scope) ∧
      planColumns plan.source (selectScope scope plan.aggregates) spec.select = .ok plan.columns ∧
      (∀ call ∈ aggregationCalls catalog spec, ∃ first position aggregate,
        (aggregationCalls catalog spec).find?
            (AggregateCatalog.writtenAs (Expr.aggregateText call)) = some first ∧
          plan.Reads scope call position aggregate ∧
          planCall scope catalog plan.window.isSome position first = .ok aggregate.handler) ∧
      (∀ call other position otherPosition aggregate otherAggregate,
        plan.Reads scope call position aggregate →
          plan.Reads scope other otherPosition otherAggregate →
            (aggregate.slot = otherAggregate.slot ↔
              Expr.aggregateText call = Expr.aggregateText other)) ∧
      ((∀ call ∈ aggregationCalls catalog spec, ∀ other ∈ aggregationCalls catalog spec,
          Expr.aggregateText call = Expr.aggregateText other →
            call.withIndex none = other.withIndex none) →
        ∀ call ∈ aggregationCalls catalog spec, ∃ position aggregate,
          plan.Reads scope call position aggregate ∧
            planCall scope catalog plan.window.isSome position call = .ok aggregate.handler) := by
  obtain ⟨scope, isSource, areAggregates, areColumns⟩ := aggregates_of_ofSpec planned
  have nodup := nodup_text_of_ofSpec planned
  have reads : ∀ call ∈ aggregationCalls catalog spec, ∃ first position aggregate,
      (aggregationCalls catalog spec).find?
          (AggregateCatalog.writtenAs (Expr.aggregateText call)) = some first ∧
        plan.Reads scope call position aggregate ∧
        planCall scope catalog plan.window.isSome position first = .ok aggregate.handler :=
    reads_of_planCalls areAggregates fun call member =>
      (Bool.and_eq_true_iff.mp (List.mem_filter.mp member).2).1
  refine ⟨scope, isSource, areColumns, reads, ?_, fun faithful call member => ?_⟩
  · intro call other position otherPosition aggregate otherAggregate isRead isOther
    exact isRead.slot_eq_iff nodup isOther
  · obtain ⟨first, position, aggregate, isFirst, isRead, checked⟩ := reads call member
    refine ⟨position, aggregate, isRead, ?_⟩
    have same := faithful first (List.mem_of_find?_eq_some isFirst) call member
      (AggregateCatalog.text_eq_of_find? isFirst)
    rw [← planCall_withIndex position call none, ← same, planCall_withIndex]
    exact checked

end Calls

end Plan

namespace Plan

/-- A schema of triples of numbers. -/
def tripleSchema : Schema :=
  Schema.empty.addShape
    ⟨"Triple", true, [("a", ⟨.int, none⟩), ("b", ⟨.int, none⟩), ("c", ⟨.int, none⟩)], []⟩

/-- The call that sums up what an expression is for each row. -/
def sumOf (expr : Expr) : Segment Expr := .call "sum" [expr] none

/-- The statement that selects two calls from triples. -/
def selectTwo (first second : Segment Expr) : StatementSpec where
  name := none
  source := .stream "Triple" none none
  select := [.column (.chain [first]) (some "first"), .column (.chain [second]) (some "second")]
  condition := none
  groupBy := []

/-- The product of the sum of the first two numbers and the third one. -/
def sumTimes : Expr := .binary .mul (.binary .add (.ident "a") (.ident "b")) (.ident "c")

/-- The sum of the first number and the product of the other two. -/
def plusProduct : Expr := .binary .add (.ident "a") (.binary .mul (.ident "b") (.ident "c"))

/-- The sums of a number and of its negation are each checked from their own arguments. -/
theorem calls_read_first_of_text_negated :
    let up := sumOf (.ident "a")
    let down := sumOf (.neg (.ident "a"))
    ∃ plan, ofSpec tripleSchema .standard (selectTwo up down) = .ok plan ∧
      ∃ scope position aggregate, plan.Reads scope down position aggregate ∧
        planCall scope .standard plan.window.isSome position down = .ok aggregate.handler := by
  intro up down
  have accepted : (ofSpec tripleSchema .standard (selectTwo up down)).isOk = true := by
    decide +kernel
  rcases planned : ofSpec tripleSchema .standard (selectTwo up down) with error | plan
  · rw [planned] at accepted
    cases accepted
  obtain ⟨scope, _, _, _, _, own⟩ := calls_read_first_of_text planned
  have heads : Expr.headsOfAll (selectTwo up down).selected =
      [up, .property "a" none, down, .property "a" none] := rfl
  have isUp : AggregateCatalog.standard.calls up = true := by decide +kernel
  have isDown : AggregateCatalog.standard.calls down = true := by decide +kernel
  have noCall : AggregateCatalog.standard.calls (.property "a" none) = false := rfl
  have areCalls : aggregationCalls .standard (selectTwo up down) = [up, down] := by
    simp only [aggregationCalls, heads, List.filter_cons, List.filter_nil, isUp, isDown, noCall,
      Bool.false_eq_true, ↓reduceIte]
  have different : Expr.aggregateText up ≠ Expr.aggregateText down := by decide +kernel
  have faithful : ∀ call ∈ [up, down], ∀ other ∈ [up, down],
      Expr.aggregateText call = Expr.aggregateText other →
        call.withIndex none = other.withIndex none := by
    simp [different, different.symm]
  rw [areCalls] at own
  obtain ⟨position, aggregate, reads, checked⟩ :=
    own faithful down (List.mem_cons_of_mem _ (List.mem_singleton_self _))
  exact ⟨plan, rfl, scope, position, aggregate, reads, checked⟩

/--
Sums of different expressions with one written form have one slot: for a triple of one, two and
three both columns are nine, although the second one asks for seven.
-/
theorem not_own_aggregation :
    let created := ((Processor.new tripleSchema .standard .standard 1).create
      (selectTwo (sumOf sumTimes) (sumOf plusProduct))).1
    let triple : Event := ⟨.given 0, "Triple", [("a", .int 1), ("b", .int 2), ("c", .int 3)]⟩
    sumTimes ≠ plusProduct ∧
      Expr.aggregateText (sumOf sumTimes) = Expr.aggregateText (sumOf plusProduct) ∧
      (created.statements.map fun statement => statement.plan.aggregates.length) = [1] ∧
      ((created.send triple).2.map fun output =>
          output.rows.map fun row => row.map fun column => column.2.asInt?) =
        [[[some 9, some 9]]] := by
  refine ⟨fun same => ?_, rfl, by decide +kernel, by decide +kernel⟩
  cases same

end Plan

end EventQuery
