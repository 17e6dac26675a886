import EventQuery.Proofs.Pattern.CasedSteps
import EventQuery.Proofs.Pattern.Finished

namespace EventQuery

/-!
# Patterns without time

A pattern in which no timer and no time bound is written has no deadlines when it runs.  Inside a
casing its calls therefore begin as they do on their own, as long as no deadline of the operators
around has come.
-/

namespace PatternExpr

mutual

/-- Whether a pattern is written without timers and time bounds. -/
def isTimeless : PatternExpr → Bool
  | .filter _ => true
  | .every child => isTimeless child
  | .sequence left right => isTimeless left && isTimeless right
  | .alternation children => areTimeless children
  | .conjunction children => areTimeless children
  | .repetition child _ _ => isTimeless child
  | .negation child => isTimeless child
  | .within _ _ => false
  | .guarded child _ => isTimeless child
  | .timer _ => false

/-- Whether several patterns are written without timers and time bounds. -/
def areTimeless : List PatternExpr → Bool
  | [] => true
  | child :: rest => isTimeless child && areTimeless rest

end

theorem isTimeless_of_mem
    {children : List PatternExpr}
    (timeless : areTimeless children = true)
    {child : PatternExpr}
    (member : child ∈ children) :
    child.isTimeless = true := by
  induction children with
  | nil => cases member
  | cons first rest inductionHypothesis =>
      rw [areTimeless, Bool.and_eq_true] at timeless
      rcases List.mem_cons.mp member with isFirst | inRest
      · exact isFirst ▸ timeless.1
      · exact inductionHypothesis timeless.2 inRest

/-- The operands of a pattern without time are without time. -/
theorem isTimeless_operand
    {expr child : PatternExpr}
    (timeless : expr.isTimeless = true)
    (member : child ∈ expr.operands) :
    child.isTimeless = true := by
  cases expr <;> rw [isTimeless] at timeless
  case sequence left right =>
      rw [Bool.and_eq_true] at timeless
      rcases List.mem_cons.mp member with isLeft | isRight
      · exact isLeft ▸ timeless.1
      · exact List.mem_singleton.mp isRight ▸ timeless.2
  case alternation children => exact isTimeless_of_mem timeless member
  case conjunction children => exact isTimeless_of_mem timeless member
  case filter spec => cases member
  case within child duration => cases timeless
  case timer duration => cases timeless
  all_goals exact List.mem_singleton.mp member ▸ timeless

end PatternExpr

namespace CompiledPattern

variable {compiled : CompiledPattern}

/-- The node of a pattern without time waits for no point of time. -/
theorem Listed.isTimed_top
    {number : Nat}
    {expr : PatternExpr}
    {node : PatternNode}
    (listed : Listed compiled number expr)
    (timeless : expr.isTimeless = true)
    (atNumber : compiled.nodes[number]? = some node) :
    node.isTimed = false := by
  cases listed.isOf atNumber with
  | within => cases timeless
  | timer => cases timeless
  | _ => rfl

/-- No node inside a pattern without time waits for a point of time. -/
theorem Listed.isTimed
    {expr : PatternExpr}
    {number inner : Nat}
    {node : PatternNode}
    (listed : Listed compiled number expr)
    (timeless : expr.isTimeless = true)
    (lower : number ≤ inner)
    (upper : inner < number + expr.size)
    (atInner : compiled.nodes[inner]? = some node) :
    node.isTimed = false := by
  induction expr using PatternExpr.operandInduction generalizing number with
  | step expr inductionHypothesis =>
      by_cases isTop : inner = number
      · subst isTop
        exact listed.isTimed_top timeless atInner
      · have whole := expr.size_eq
        obtain ⟨child, start, member, _, childListed, above, below, _⟩ :=
          listed.operands.exists_child inner (by omega) (by omega)
        exact inductionHypothesis child member childListed
          (PatternExpr.isTimeless_operand timeless member) above below

/-- A pattern written without time is compiled to one without time. -/
theorem timeless_of_compile
    {schema : Schema}
    {expr : PatternExpr}
    (success : compile schema expr = .ok compiled)
    (timeless : expr.isTimeless = true) :
    compiled.Timeless := by
  intro number node atNumber
  obtain ⟨listed, length⟩ := listed_of_compile success
  have inRange := (List.getElem?_eq_some_iff.mp atNumber).1
  exact listed.isTimed timeless (Nat.zero_le _) (by omega) atNumber

end CompiledPattern

namespace Engine

variable {compiled : CompiledPattern} {limit patience : Nat} {now : Int} {calls : List Call}
  {engine : Engine}

/-- Nothing in a pattern without time has a deadline. -/
theorem Coherent.deadlines_of_timeless
    {law : RowLaw compiled}
    {moment horizon : Nat}
    (coherent : engine.Coherent law moment horizon [] none [])
    (timeless : compiled.Timeless) :
    engine.deadlines = [] := by
  refine List.eq_nil_iff_forall_not_mem.mpr fun entry member => ?_
  obtain ⟨_, state, live, hasRank⟩ := (coherent.indexed.deadlines entry.1 entry.2).mp member
  obtain ⟨deadline, isProgress, _⟩ := PatternState.deadlineRank?_eq_some_iff.mp hasRank
  obtain ⟨node, atNode, fits⟩ := coherent.kept.fits live
  have untimed := timeless atNode
  rcases isProgress with isTimer | ⟨child, held, isWithin⟩
  · rw [isTimer] at fits
    cases fits
    cases untimed
  · rw [isWithin] at fits
    cases fits
    cases untimed

theorem Run.deadlines_of_timeless
    (table : compiled.Sound)
    (timeless : compiled.Timeless)
    (run : Run compiled limit patience now calls engine) :
    engine.deadlines = [] :=
  (run.coherent table (RowLaw.width compiled) fun _ => trivial).deadlines_of_timeless timeless

end Engine

namespace Casing

variable {casing : Casing} {inner : Engine}

/-- Inside a casing a step is taken as it is on its own, unless the pattern reports out. -/
theorem step_engine
    (timeless : inner.pattern.Timeless)
    {task : Task}
    {rest : List Task}
    (isAgenda : inner.agenda = task :: rest)
    (inside : ∀ sender signal, task ≠ .report none sender signal) :
    (casing.engine inner).step = casing.engine inner.step := by
  have sameAgenda : (casing.engine inner).agenda =
      casing.task task :: (rest.map casing.task ++ casing.afterwards) := by
    simp [engine, isAgenda]
  rw [Engine.step_of_agenda sameAgenda, perform_engine timeless inside,
    Engine.step_of_agenda isAgenda]
  simp [engine, answer]

/-- A report out of the pattern goes to the innermost operator around it. -/
theorem agenda_engine_of_report
    {sender : Ticket}
    {signal : Signal}
    {rest : List Task}
    (isAgenda : inner.agenda = .report none sender signal :: rest) :
    (casing.engine inner).agenda =
      .report (some casing.owner) (casing.ticket sender) signal ::
        (rest.map casing.task ++ casing.afterwards) := by
  simp [engine, isAgenda, task, receiver]

theorem candidates_engine (eventType : String) :
    (casing.engine inner).candidates eventType =
      (inner.candidates eventType).map casing.ticket := by
  have sameNode : ∀ ticket : Ticket,
      ((casing.engine inner).states.get? (casing.ticket ticket)).bind
          (casing.engine inner).nodeOf =
        ((inner.states.get? ticket).bind inner.nodeOf).map
          (PatternNode.renumber (· + casing.depth)) := by
    intro ticket
    rw [get?_engine]
    cases inner.states.get? ticket with
    | none => rfl
    | some state => exact nodeOf_engine
  have isIndex : (casing.engine inner).filters =
      inner.filters.map fun entry =>
        (entry.1.later casing.depth casing.depth, casing.ticket entry.2) :=
    rfl
  rw [Engine.candidates, isIndex, List.filterMap_map, Engine.candidates, List.map_filterMap]
  refine List.filterMap_congr fun entry _ => ?_
  simp only [Function.comp_apply, sameNode]
  cases (inner.states.get? entry.2).bind inner.nodeOf with
  | none => rfl
  | some node =>
      cases node with
      | filter awaited slot predicate =>
          simp only [Option.map_some, PatternNode.renumber]
          split <;> rfl
      | _ => rfl

/-- An event is shown inside a casing as it is on its own. -/
theorem begun_event
    (noneAfter : casing.afterwards = [])
    (event : Event) :
    (casing.engine inner).begun (.event event) = casing.engine (inner.begun (.event event)) := by
  simp only [Engine.begun, candidates_engine]
  simp [engine, noneAfter, task, Function.comp_def]

/-- Before the deadlines of the operators around, a time is told inside a casing as on its own. -/
theorem begun_time
    (noDeadlines : inner.deadlines = [])
    {told : Int}
    (early : ∀ entry ∈ casing.deadlines, max inner.now told < entry.1.main) :
    (casing.engine inner).begun (.time told) = casing.engine (inner.begun (.time told)) := by
  have nothingDue : StateIndex.upTo casing.deadlines (max inner.now told) = [] := by
    rw [StateIndex.upTo, List.map_eq_nil_iff, List.filter_eq_nil_iff]
    intro entry member
    have := early entry member
    simpa using this
  have isIndex : (casing.engine inner).deadlines = casing.deadlines := by
    simp [engine, noDeadlines, StateIndex.relocate]
  have noneOutside : StateIndex.upTo (casing.engine inner).deadlines
      (max (casing.engine inner).now told) = [] := by
    rw [isIndex]
    exact nothingDue
  have noneInside : StateIndex.upTo inner.deadlines (max inner.now told) = [] := by
    rw [noDeadlines]
    rfl
  simp only [Engine.begun, noneOutside, noneInside, List.map_nil, List.append_nil]
  rfl

/-- Before the deadlines of the operators around, a call begins inside a casing as on its own. -/
theorem begun_engine
    (noneAfter : casing.afterwards = [])
    (noDeadlines : inner.deadlines = [])
    {next : Engine.Call}
    (goesOn : next ≠ .stop)
    (early : ∀ entry ∈ casing.deadlines, ∀ told, next = .time told →
      max inner.now told < entry.1.main) :
    (casing.engine inner).begun next = casing.engine (inner.begun next) := by
  cases next with
  | event event => exact begun_event noneAfter event
  | time told =>
      exact begun_time noDeadlines fun entry member => early entry member told rfl
  | stop => exact absurd rfl goesOn

end Casing

end EventQuery
