import EventQuery.Proofs.Pattern.Running

namespace EventQuery

/-!
# Well-formed engines

Between calls every partial match hangs together: parents and children know each other, the indexes
hold exactly what waits, the leaves are counted, and every row has one slot for each tag.
-/

namespace Progress

/-- The rows that are kept in a progress. -/
def rows : Progress → List Row
  | .conjunction operands => operands.filterMap Conjunct.bindings
  | .repetition _ _ collected => [collected]
  | .within _ _ held => held.toList
  | _ => []

end Progress

namespace PatternState

/-- The rows that are kept in a state. -/
def rows (state : PatternState) : List Row := state.bindings :: state.progress.rows

theorem filterRank?_eq_some_iff
    {state : PatternState}
    {rank : Rank} :
    state.filterRank? = some rank ↔
      state.progress = .filter ∧ rank = ⟨state.node, state.created⟩ := by
  rw [filterRank?, eq_comm (a := rank)]
  cases state.progress <;> simp [Progress.wait]

theorem deadlineRank?_eq_some_iff
    {state : PatternState}
    {rank : Rank} :
    state.deadlineRank? = some rank ↔
      ∃ deadline,
        (state.progress = .timer deadline ∨
          ∃ child held, state.progress = .within child deadline held) ∧
        rank = ⟨deadline, state.created⟩ := by
  simp only [deadlineRank?, eq_comm (a := rank)]
  cases state.progress <;> simp [Progress.wait]

end PatternState

section Length

theorem length_bindEvent
    (bindings : Row)
    (slot : Option Nat)
    (event : Event) :
    (bindEvent bindings slot event).length = bindings.length := by
  cases slot with
  | none => rfl
  | some slot => exact List.length_set

theorem length_foldl
    {Item : Type}
    (write : Row → Item → Row)
    (keeps : ∀ row item, (write row item).length = row.length)
    (items : List Item)
    (row : Row) :
    (items.foldl write row).length = row.length := by
  induction items generalizing row with
  | nil =>
      rfl
  | cons item rest inductionHypothesis =>
      rw [List.foldl_cons, inductionHypothesis, keeps]

theorem length_withEmptySequences
    (row : Row)
    (slots : List Nat) :
    (Progress.withEmptySequences row slots).length = row.length :=
  length_foldl _ (fun _ _ => List.length_set) slots row

theorem length_roundBindings
    (row : Row)
    (slots : List Nat) :
    (Engine.roundBindings row slots).length = row.length :=
  length_foldl _ (fun _ _ => List.length_set) slots row

theorem length_collect
    (collected row : Row)
    (slots : List Nat) :
    (Engine.collect collected row slots).length = collected.length := by
  refine length_foldl _ (fun kept slot => ?_) slots collected
  split
  next => exact List.length_set
  next => rfl

theorem length_merge
    (start : Row)
    (operands : List Conjunct) :
    (Conjunct.merge start operands).length = start.length :=
  length_foldl _ (fun _ _ => List.length_mapIdx) _ start

/-- All rows of a running pattern have one slot for each tag. -/
def RowLaw.width (compiled : CompiledPattern) : RowLaw compiled where
  start := fun _ _ row => row.length = compiled.width
  yield := fun _ _ _ found => found.length = compiled.width
  rounds := fun _ _ _ _ collected => collected.length = compiled.width
  admits := fun _ _ => True
  start_mono := fun _ isLong => isLong
  yield_mono := fun _ isLong => isLong
  rounds_mono := fun _ isLong => isLong
  start_blank := List.length_replicate
  yield_filter := fun _ isLong _ _ => (length_bindEvent _ _ _).trans isLong
  yield_timer := fun _ isLong => isLong
  yield_negation := fun _ isLong => isLong
  start_opening := fun _ _ isLong => isLong
  yield_passing := fun _ _ _ isLong => isLong
  start_right := fun _ _ isLong => isLong
  yield_right := fun _ _ _ isLong => isLong
  yield_merge := fun _ isLong _ => (length_merge _ _).trans isLong
  rounds_initial := fun _ isLong => (length_withEmptySequences _ _).trans isLong
  start_round := fun _ _ isLong => (length_roundBindings _ _).trans isLong
  rounds_collect := fun _ _ _ _ isLong _ => (length_collect _ _ _).trans isLong
  yield_rounds := fun _ _ isLong => isLong

end Length

theorem RowLaw.Fits.length_of_mem_rows
    {compiled : CompiledPattern}
    {now number : Nat}
    {start : Row}
    {node : PatternNode}
    {progress : Progress}
    (fits : (RowLaw.width compiled).Fits now number start node progress)
    {row : Row}
    (member : row ∈ progress.rows) :
    row.length = compiled.width := by
  cases fits with
  | conjunction begun =>
      obtain ⟨operand, inOperands, isBound⟩ := List.mem_filterMap.mp member
      rcases begun with empty | yielded
      · rw [empty] at inOperands
        cases inOperands
      · obtain ⟨place, inRange, atPlace⟩ := List.getElem_of_mem inOperands
        have sameLength := yielded.length_eq
        exact yielded.get (i := place) (by omega) inRange row (by simpa [atPlace] using isBound)
  | repetition collected =>
      exact List.mem_singleton.mp member ▸ collected
  | within held =>
      exact held row (Option.mem_toList.mp member)
  | _ =>
      cases member

namespace Engine

/-- An engine between calls: what is alive is linked, listed and counted, and nothing else is. -/
structure WellFormed (engine : Engine) : Prop where
  /-- Every live state but the root has a live parent that lists it exactly once. -/
  parentLists :
    ∀ {ticket : Ticket} {state : PatternState},
      engine.states.get? ticket = some state → engine.root ≠ some ticket →
        ∃ parent owner, state.parent = some parent ∧
          engine.states.get? parent = some owner ∧ owner.progress.children.count ticket = 1
  /-- Every state that a live state lists is live, and knows its parent. -/
  childrenLive :
    ∀ {parent : Ticket} {owner : PatternState},
      engine.states.get? parent = some owner → ∀ child ∈ owner.progress.children,
        ∃ state, engine.states.get? child = some state ∧ state.parent = some parent
  /-- The root is the live state without a parent. -/
  rootLive :
    ∀ {ticket : Ticket},
      engine.root = some ticket ↔
        ∃ state, engine.states.get? ticket = some state ∧ state.parent = none
  /-- The waiting filters are the live ones, each under its node and number. -/
  filters :
    ∀ {rank : Rank} {ticket : Ticket},
      (rank, ticket) ∈ engine.filters ↔
        ∃ state, engine.states.get? ticket = some state ∧ state.progress = .filter ∧
          rank = ⟨state.node, state.created⟩
  filtersSorted : engine.filters.Sorted
  /-- The open deadlines are those of live timers and time bounds, by their times and numbers. -/
  deadlines :
    ∀ {rank : Rank} {ticket : Ticket},
      (rank, ticket) ∈ engine.deadlines ↔
        ∃ state deadline, engine.states.get? ticket = some state ∧
          (state.progress = .timer deadline ∨
            ∃ child held, state.progress = .within child deadline held) ∧
          rank = ⟨deadline, state.created⟩
  deadlinesSorted : engine.deadlines.Sorted
  /-- The leaves are the live filters and timers. -/
  leaves : engine.leaves = engine.states.count PatternState.isLeaf
  /-- Every row has one slot for each tag. -/
  rows :
    ∀ {ticket : Ticket} {state : PatternState},
      engine.states.get? ticket = some state →
        ∀ row ∈ state.rows, row.length = engine.pattern.width
  /-- Filters and repetitions write at slots that exist. -/
  slots :
    ∀ {number : Nat} {node : PatternNode},
      engine.pattern.nodes[number]? = some node →
        ∀ slot ∈ node.slots, slot < engine.pattern.width
  /-- Without a root nothing is left. -/
  finished :
    engine.root = none →
      (∀ ticket, engine.states.get? ticket = none) ∧ engine.filters = [] ∧
        engine.deadlines = [] ∧ engine.leaves = 0

/-- A live state without a root would have an endless line of parents. -/
theorem Coherent.rooted
    {compiled : CompiledPattern}
    {law : RowLaw compiled}
    {moment horizon : Nat}
    {engine : Engine}
    {starting : List Ticket}
    (coherent : engine.Coherent law moment horizon starting none [])
    {ticket : Ticket}
    {state : PatternState}
    (live : engine.states.get? ticket = some state) :
    engine.root ≠ none := by
  induction number : state.created using Nat.strongRecOn generalizing ticket state with
  | ind number inductionHypothesis =>
      cases hasParent : state.parent with
      | none =>
          rw [(coherent.linked.top (.inl live) (by simp) hasParent).1]
          simp
      | some parent =>
          obtain ⟨owner, _, ownerLive, _, _, order⟩ :=
            coherent.linked.adopted (.inl live) (by simp) hasParent
          exact inductionHypothesis owner.created (number ▸ order) ownerLive rfl

/-- An engine that is coherent as to the number of slots is well formed. -/
theorem Coherent.toWellFormed
    {compiled : CompiledPattern}
    (table : compiled.Sound)
    {moment horizon : Nat}
    {engine : Engine}
    (coherent : engine.Coherent (RowLaw.width compiled) moment horizon [] none []) :
    engine.WellFormed := by
  have isLive : ∀ {ticket : Ticket} {state : PatternState},
      engine.Present none ticket state → engine.states.get? ticket = some state :=
    fun present => present.resolve_right (by simp)
  constructor
  case parentLists =>
      intro ticket state live notRoot
      cases hasParent : state.parent with
      | none =>
          exact absurd (coherent.linked.top (.inl live) (by simp) hasParent).1 notRoot
      | some parent =>
          obtain ⟨owner, node, ownerLive, _, adopts, _⟩ :=
            coherent.linked.adopted (.inl live) (by simp) hasParent
          exact ⟨parent, owner, rfl, ownerLive,
            List.count_eq_one_of_mem (coherent.kept.childrenNodup ownerLive) adopts.mem_children⟩
  case childrenLive =>
      intro parent owner live child member
      obtain ⟨_, state, present, hasParent⟩ := coherent.linked.listed live member
      exact ⟨state, isLive present, hasParent⟩
  case rootLive =>
      intro ticket
      constructor
      · intro isRoot
        obtain ⟨_, state, present, noParent⟩ := coherent.linked.rooted isRoot
        exact ⟨state, isLive present, noParent⟩
      · rintro ⟨state, live, noParent⟩
        exact (coherent.linked.top (.inl live) (by simp) noParent).1
  case filters =>
      intro rank ticket
      rw [coherent.indexed.filters rank ticket]
      simp only [List.not_mem_nil, not_false_eq_true, true_and,
        PatternState.filterRank?_eq_some_iff]
  case filtersSorted =>
      exact coherent.indexed.filtersSorted
  case deadlines =>
      intro rank ticket
      rw [coherent.indexed.deadlines rank ticket]
      simp only [List.not_mem_nil, not_false_eq_true, true_and,
        PatternState.deadlineRank?_eq_some_iff, exists_and_left]
  case deadlinesSorted =>
      exact coherent.indexed.deadlinesSorted
  case leaves =>
      exact coherent.indexed.leaves
  case rows =>
      intro ticket state live row member
      rw [coherent.kept.pattern]
      rcases List.mem_cons.mp member with isStart | isKept
      · exact isStart ▸ coherent.kept.starts live
      · obtain ⟨node, _, fits⟩ := coherent.kept.fits live
        exact fits.length_of_mem_rows isKept
  case slots =>
      rw [coherent.kept.pattern]
      exact table.slotRange
  case finished =>
      intro rootless
      have nothing : ∀ ticket, engine.states.get? ticket = none := by
        intro ticket
        rw [Option.eq_none_iff_forall_not_mem]
        exact fun state live => coherent.rooted live rootless
      refine ⟨nothing, ?_, ?_, ?_⟩
      · refine List.eq_nil_iff_forall_not_mem.mpr fun entry member => ?_
        obtain ⟨_, state, live, _⟩ := (coherent.indexed.filters entry.1 entry.2).mp member
        rw [nothing] at live
        cases live
      · refine List.eq_nil_iff_forall_not_mem.mpr fun entry member => ?_
        obtain ⟨_, state, live, _⟩ := (coherent.indexed.deadlines entry.1 entry.2).mp member
        rw [nothing] at live
        cases live
      · exact coherent.indexed.leaves.trans (Pool.count_eq_zero nothing _)

/-- Whatever calls a run makes, the engine is well formed between them. -/
theorem Run.wellFormed
    {schema : Schema}
    {expr : PatternExpr}
    {compiled : CompiledPattern}
    (success : CompiledPattern.compile schema expr = .ok compiled)
    {limit patience : Nat}
    {now : Int}
    {calls : List Call}
    {engine : Engine}
    (run : Run compiled limit patience now calls engine) :
    engine.WellFormed :=
  have table := CompiledPattern.sound_of_compile success
  (run.coherent table (RowLaw.width compiled) fun _ => trivial).toWellFormed table

/-- A schema with one event type. -/
def tickSchema : Schema := Schema.empty.addShape ⟨"Tick", true, [], []⟩

/-- An event of that type. -/
def tick : Event := ⟨.given 0, "Tick", []⟩

/-- A pattern that matches each event of that type, compiled. -/
def everyTick : CompiledPattern :=
  ⟨[.every 1, .filter "Tick" (some 0) none], [⟨"t", "Tick", 0, []⟩]⟩

/-- An engine that has matched an event and waits for the next one is well formed. -/
theorem Run.wellFormed_everyTick :
    CompiledPattern.compile tickSchema (.every (.filter ⟨some "t", "Tick", none⟩)) =
        .ok everyTick ∧
      ((Engine.start everyTick 10 10 0).call (.event tick)).1.WellFormed := by
  have compiles : CompiledPattern.compile tickSchema
      (.every (.filter ⟨some "t", "Tick", none⟩)) = .ok everyTick := rfl
  have run : Run everyTick 10 10 0 [.event tick]
      ((Engine.start everyTick 10 10 0).call (.event tick)).1 :=
    .call (.event tick) (.start rfl) (by cbv)
  exact ⟨compiles, Run.wellFormed compiles run⟩

end Engine

end EventQuery
