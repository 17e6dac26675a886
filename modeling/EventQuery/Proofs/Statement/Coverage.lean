import EventQuery.Proofs.Statement.InStep
import Mathlib.Data.List.DropRight

namespace EventQuery

/-!
# What a window covers

A statement over a stream accepts at most one row of each event.  Its window is compared with the
rows that it has accepted so far.  It has all of the latest ones of which the group was not dropped,
and it has no row of a group that was dropped; but where rows of a dropped group have left room, it
keeps older rows of other groups.
-/

section Latest

variable {α : Type} {last list : List α} {size : Nat}

theorem length_rtake (list : List α) (size : Nat) :
    (list.rtake size).length = min size list.length := by
  rw [List.rtake, List.length_drop]
  omega

/-- A last part of bounded length is a last part of the last elements. -/
theorem suffix_rtake
    (isLast : last <:+ list)
    (bounded : last.length ≤ size) :
    last <:+ list.rtake size := by
  refine List.suffix_of_suffix_length_le isLast (List.drop_suffix _ _) ?_
  rw [length_rtake]
  exact Nat.le_min.mpr ⟨bounded, isLast.length_le⟩

end Latest

/-- A row that a statement has accepted. -/
structure Arrival where
  row : Row
  group : GroupKey
  /-- Whether the group was dropped since. -/
  dropped : Bool

namespace Arrival

/-- The rows of groups that were not dropped, with their groups. -/
def kept (arrivals : List Arrival) : List (Row × GroupKey) :=
  (arrivals.filter fun arrival => !arrival.dropped).map fun arrival => (arrival.row, arrival.group)

theorem kept_append
    (first second : List Arrival) :
    kept (first ++ second) = kept first ++ kept second := by
  rw [kept, List.filter_append, List.map_append]
  rfl

theorem kept_suffix
    {first second : List Arrival}
    (last : first <:+ second) :
    kept first <:+ kept second :=
  (last.filter _).map _

/-- Where no group was dropped, all rows are kept. -/
theorem kept_of_none_dropped
    {arrivals : List Arrival}
    (held : ∀ arrival ∈ arrivals, arrival.dropped = false) :
    kept arrivals = arrivals.map fun arrival => (arrival.row, arrival.group) := by
  rw [kept, List.filter_eq_self.mpr fun arrival member => by rw [held arrival member]; rfl]

theorem length_kept_le
    (arrivals : List Arrival) :
    (kept arrivals).length ≤ arrivals.length := by
  rw [kept, List.length_map]
  exact List.length_filter_le _ _

/-- The accepted rows, when a statement is seen again: a group that is not open was dropped. -/
def seen (statement : Statement) (arrivals : List Arrival) : List Arrival :=
  arrivals.map fun arrival =>
    { arrival with dropped := arrival.dropped || (statement.group? arrival.group).isNone }

theorem kept_seen
    (statement : Statement)
    (arrivals : List Arrival) :
    kept (seen statement arrivals) =
      (kept arrivals).filter fun held => (statement.group? held.2).isSome := by
  rw [kept, seen, List.filter_map, List.map_map, kept, List.filter_map, List.filter_filter]
  congr 1
  refine List.filter_congr fun arrival _ => ?_
  simp [Bool.and_comm]

theorem rtake_seen
    (statement : Statement)
    (arrivals : List Arrival)
    (size : Nat) :
    (seen statement arrivals).rtake size = seen statement (arrivals.rtake size) := by
  rw [List.rtake, seen, List.length_map, ← List.map_drop]
  rfl

end Arrival

namespace Statement

open Arrival (kept seen kept_append kept_suffix kept_seen rtake_seen)

/-- The rows of the window, with their groups. -/
def covered (statement : Statement) : List (Row × GroupKey) :=
  statement.window.map fun held => (held.row, held.group)

/--
The row that an event makes for a statement over a stream, with its group, when it passes the
condition and its grouping expressions have values.
-/
def accepts? (statement : Statement) (event : Event) (occasion : Occasion) :
    Option (Row × GroupKey) :=
  match statement.stopped, statement.plan.source with
  | false, .stream eventType _ =>
      if event.kind = eventType then
        match statement.plan.select? [.event event] (0 :: 0 :: occasion) with
        | .ok (some key) => some ([.event event], key)
        | _ => none
      else none
  | _, _ => none

/-- An acceptance, before its group is dropped. -/
def arrivalOf (accepted : Row × GroupKey) : Arrival := ⟨accepted.1, accepted.2, false⟩

theorem length_covered
    (statement : Statement) :
    statement.covered.length = statement.window.length :=
  List.length_map _

/-- A statement over a stream with a window of some size. -/
structure Windowed (statement : Statement) (size : Nat) : Prop where
  source : ∃ eventType, statement.plan.source = .stream eventType (some size)
  noEngine : statement.engine = none

section Stepping

variable {statement : Statement} {store : StateStore} {occasion : Occasion} {size : Nat}

theorem drain_of_noEngine
    (noEngine : statement.engine = none)
    (output : StatementOutput) :
    statement.drain output = (statement, output) := by
  simp only [drain, noEngine]

/-- After a row without an error, a statement over a stream goes on as it is. -/
theorem settle_fst_of_noEngine
    (noEngine : statement.engine = none)
    (output : StatementOutput) :
    (statement.settle store output).1 =
      if output.error.isSome then (statement.stop store).1 else statement := by
  simp only [settle, drain_of_noEngine noEngine]
  split <;> rfl

theorem engine_of_openGroup
    {opened : Statement}
    {obtained : StateStore}
    {key : GroupKey}
    {handles : List StateHandle}
    (outcome : statement.openGroup store key occasion = (opened, obtained, .ok handles)) :
    opened.engine = statement.engine := by
  rcases found : statement.group? key with _ | group
  · rw [(eq_of_openGroup_ok found outcome).1]
  · rw [openGroup_of_open found] at outcome
    cases outcome
    rfl

/-- What a row makes of a statement that has accepted it. -/
inductive Accepted (statement : Statement) (row : Row) (key : GroupKey) : Statement → Prop
  | unaggregated (unused : statement.plan.aggregates = []) : Accepted statement row key statement
  | refused (running : statement.stopped = false) (left : StateStore) :
      Accepted statement row key (statement.stop left).1
  | aggregated {opened : Statement} {store obtained : StateStore} {handles : List StateHandle}
      (used : statement.plan.aggregates ≠ []) (opening occasion : Occasion)
      (outcome : statement.openGroup store key opening = (opened, obtained, .ok handles)) :
      Accepted statement row key (opened.aggregateRow obtained key handles row occasion).1

/-- A row is accepted by a statement when it passes the condition and its group has values. -/
theorem accepted_evaluateRow
    (store : StateStore)
    {row : Row}
    {key : GroupKey}
    (running : statement.stopped = false)
    (selected : statement.plan.select? row occasion = .ok (some key)) :
    match statement.evaluateRow store row occasion with
    | (changed, _, .ok _) => Accepted statement row key changed
    | (changed, updated, .error _) => Accepted statement row key (changed.stop updated).1 := by
  rw [evaluateRow, selected]
  cases isEmpty : statement.plan.aggregates.isEmpty with
  | true => exact .unaggregated (List.isEmpty_iff.mp isEmpty)
  | false =>
      have used : statement.plan.aggregates ≠ [] := by
        simpa [List.isEmpty_iff] using isEmpty
      rcases opening : statement.openGroup store key (5 :: occasion) with
        ⟨opened, obtained, error | handles⟩
      · simp only [Bool.false_eq_true, if_false, opening]
        rw [(eq_of_openGroup_error opening).1]
        exact .refused running obtained
      · simp only [Bool.false_eq_true, if_false, opening]
        exact .aggregated used _ _ opening

/-- A row leaves the engine of a statement as it is. -/
theorem engine_evaluateRow
    (statement : Statement)
    (store : StateStore)
    (row : Row)
    (occasion : Occasion) :
    (statement.evaluateRow store row occasion).1.engine = statement.engine := by
  rw [evaluateRow]
  rcases statement.plan.select? row occasion with fault | _ | key
  · rfl
  · rfl
  · dsimp only
    split
    next => rfl
    next =>
        rcases opening : statement.openGroup store key (5 :: occasion) with
          ⟨opened, obtained, error | handles⟩
        · simp only [(eq_of_openGroup_error opening).1]
        · have engine := engine_of_openGroup opening
          simp only [aggregateRow_fst]
          exact engine

/-- What a statement over a stream is after an event. -/
theorem Windowed.send_cases
    (windowed : statement.Windowed size)
    (store : StateStore)
    (event : Event)
    (occasion : Occasion) :
    (statement.accepts? event occasion = none ∧
      (statement.send store event occasion).1 = statement) ∨
    ∃ row key, statement.accepts? event occasion = some (row, key) ∧
      Accepted statement row key (statement.send store event occasion).1 := by
  obtain ⟨⟨eventType, isStream⟩, noEngine⟩ := windowed
  cases running : statement.stopped with
  | true =>
      refine .inl ⟨by simp only [accepts?, running], ?_⟩
      rw [send, if_pos running]
  | false =>
      by_cases kind : event.kind = eventType
      · have made : statement.rowsOf event occasion = (statement, ⟨[[.event event]], []⟩) := by
          simp only [rowsOf, isStream, if_pos kind]
        simp only [accepts?, running, isStream, if_pos kind, send, made, evaluateRows,
          Bool.false_eq_true, if_false]
        rcases selecting : statement.plan.select? [.event event] (0 :: 0 :: occasion) with
          fault | _ | key
        · simp only [evaluateRow, selecting, settle_fst_of_noEngine noEngine]
          exact .inl ⟨trivial, rfl⟩
        · simp only [evaluateRow, selecting, settle_fst_of_noEngine noEngine]
          exact .inl ⟨trivial, rfl⟩
        · refine .inr ⟨_, _, rfl, ?_⟩
          have accepted := accepted_evaluateRow store running selecting
          have engine := engine_evaluateRow statement store [.event event] (0 :: 0 :: occasion)
          rcases evaluating : statement.evaluateRow store [.event event] (0 :: 0 :: occasion) with
            ⟨changed, updated, error | result⟩
          · rw [evaluating] at accepted engine
            simp only [settle_fst_of_noEngine (engine.trans noEngine), Option.isSome_some, if_true]
            exact accepted
          · rw [evaluating] at accepted engine
            simp only [settle_fst_of_noEngine (engine.trans noEngine), error_report]
            exact accepted
      · have made : statement.rowsOf event occasion = (statement, .empty) := by
          simp only [rowsOf, isStream, if_neg kind]
        simp only [accepts?, running, isStream, if_neg kind, send, made, Pairing.empty,
          evaluateRows, settle_fst_of_noEngine noEngine, Bool.false_eq_true, if_false]
        exact .inl ⟨trivial, rfl⟩

/-- A statement after some groups were dropped with their rows. -/
structure Without (keys : List GroupKey) (next statement : Statement) : Prop where
  plan : next.plan = statement.plan
  engine : next.engine = statement.engine
  stopped : next.stopped = statement.stopped
  reclaimAfter : next.reclaimAfter = statement.reclaimAfter
  groups :
    next.groups = statement.groups.filter fun group =>
      keys.all fun dropped => !group.key.same dropped
  window :
    next.window = statement.window.filter fun held =>
      keys.all fun dropped => !held.group.same dropped

theorem Without.nothing
    {next : Statement}
    (plan : next.plan = statement.plan)
    (engine : next.engine = statement.engine)
    (stopped : next.stopped = statement.stopped)
    (reclaimAfter : next.reclaimAfter = statement.reclaimAfter)
    (groups : next.groups = statement.groups)
    (window : next.window = statement.window) :
    Without [] next statement :=
  ⟨plan, engine, stopped, reclaimAfter, by simp [groups], by simp [window]⟩

theorem Without.after_nothing
    {next middle : Statement}
    {keys : List GroupKey}
    (without : Without keys next middle)
    (nothing : Without [] middle statement) :
    Without keys next statement where
  plan := without.plan.trans nothing.plan
  engine := without.engine.trans nothing.engine
  stopped := without.stopped.trans nothing.stopped
  reclaimAfter := without.reclaimAfter.trans nothing.reclaimAfter
  groups := by
    have unchanged : middle.groups = statement.groups := by
      simpa using nothing.groups
    rw [without.groups, unchanged]
  window := by
    have unchanged : middle.window = statement.window := by
      simpa using nothing.window
    rw [without.window, unchanged]

theorem without_dropGroups
    (statement : Statement)
    (store : StateStore)
    (keys : List GroupKey) :
    Without keys (statement.dropGroups store keys).1 statement := by
  induction keys generalizing statement store with
  | nil =>
      exact .nothing rfl rfl rfl rfl rfl rfl
  | cons key rest inductionHypothesis =>
      have others := inductionHypothesis (statement.dropGroup store key).1
        (statement.dropGroup store key).2
      refine ⟨others.plan, others.engine, others.stopped, others.reclaimAfter,
        others.groups.trans ?_, others.window.trans ?_⟩
      · rw [dropGroup, List.filter_filter]
        exact List.filter_congr fun group _ => by rw [List.all_cons, Bool.and_comm]
      · rw [dropGroup, List.filter_filter]
        exact List.filter_congr fun held _ => by rw [List.all_cons, Bool.and_comm]

/-- Groups are dropped only when idle groups are searched for. -/
theorem without_reclaim
    (statement : Statement)
    (store : StateStore) :
    ∃ keys, Without keys (statement.reclaim store).1 statement ∧
      (statement.reclaimAfter = none ∨ statement.plan.isGrouped = false → keys = []) := by
  rcases searching : statement.reclaimAfter with _ | after
  · rw [reclaim, searching]
    exact ⟨[], .nothing rfl rfl rfl rfl rfl rfl, fun _ => rfl⟩
  · let searched :=
      { statement with reclaimAfter := some after, lastReclaim := statement.now }
    have nothing : Without [] searched statement :=
      .nothing rfl rfl rfl searching.symm rfl rfl
    simp only [reclaim, searching]
    split
    next due =>
        refine ⟨statement.idleKeys after,
          (without_dropGroups searched store _).after_nothing nothing, ?_⟩
        rintro (isNone | ungrouped)
        · cases isNone
        · rw [ungrouped] at due
          cases due
    next => exact ⟨[], .nothing rfl rfl rfl rfl rfl rfl, fun _ => rfl⟩

/-- What a statement over a stream is after a point of time. -/
theorem Windowed.without_advanceTime
    (windowed : statement.Windowed size)
    (store : StateStore)
    (now : Int)
    (occasion : Occasion) :
    ∃ keys, Without keys (statement.advanceTime store now occasion).1 statement ∧
      (statement.reclaimAfter = none ∨ statement.plan.isGrouped = false → keys = []) := by
  have noEngine : { statement with now }.engine = none := windowed.noEngine
  have nothing : Without [] { statement with now } statement := .nothing rfl rfl rfl rfl rfl rfl
  have noMatch : { statement with now }.matchesAt now = ({ statement with now }, []) := by
    simp only [matchesAt, windowed.noEngine]
  have settled : { statement with now }.settle store
      (StatementOutput.blank statement.id statement.plan.name) =
        ({ statement with now }, store, .blank statement.id statement.plan.name) := by
    rw [settle, drain_of_noEngine noEngine]
    rfl
  simp only [advanceTime, noMatch, evaluateRows, settled]
  split
  next => exact ⟨[], .nothing rfl rfl rfl rfl rfl rfl, fun _ => rfl⟩
  next =>
      split
      next => exact ⟨[], nothing, fun _ => rfl⟩
      next =>
          obtain ⟨keys, without, never⟩ := without_reclaim { statement with now } store
          exact ⟨keys, without.after_nothing nothing, never⟩

/-- The window of a statement in comparison with all rows that it has accepted. -/
structure Accounts (statement : Statement) (size : Nat) (arrivals : List Arrival) : Prop
    extends Windowed statement size where
  bounded : statement.window.length ≤ size
  latest : kept (arrivals.rtake size) <:+ statement.covered
  earlier : statement.covered <:+ kept arrivals
  isOpen : ∀ held ∈ kept arrivals, (statement.group? held.2).isSome = true
  unused : statement.plan.aggregates = [] → statement.groups = []
  whole :
    statement.reclaimAfter = none ∨ statement.plan.isGrouped = false →
      statement.plan.aggregates ≠ [] → statement.stopped = false →
        ∀ arrival ∈ arrivals, arrival.dropped = false

theorem group?_isSome_iff
    {key : GroupKey} :
    (statement.group? key).isSome = true ↔
      ∃ group ∈ statement.groups, (group.key == key) = true :=
  List.find?_isSome

/-- When the groups of all rows that were kept are open, none of them is dropped. -/
theorem seen_eq_self
    {arrivals : List Arrival}
    (isOpen : ∀ held ∈ kept arrivals, (statement.group? held.2).isSome = true) :
    seen statement arrivals = arrivals := by
  rw [seen]
  refine (List.map_congr_left fun arrival member => ?_).trans (List.map_id arrivals)
  cases dropped : arrival.dropped with
  | true => rw [Bool.true_or, ← dropped]; rfl
  | false =>
      have isKept : (arrival.row, arrival.group) ∈ kept arrivals :=
        List.mem_map.mpr ⟨arrival, List.mem_filter.mpr ⟨member, by rw [dropped]; rfl⟩, rfl⟩
      have group : (statement.group? arrival.group).isNone = false := by
        rw [← Option.not_isSome, isOpen _ isKept]
        rfl
      rw [group, Bool.false_or, ← dropped]
      rfl

/-- A statement that holds nothing accounts for everything as dropped. -/
theorem Windowed.accounts_of_nothing
    (windowed : statement.Windowed size)
    (groups : statement.groups = [])
    (window : statement.window = [])
    (void : statement.plan.aggregates = [] ∨ statement.stopped = true)
    (arrivals : List Arrival) :
    statement.Accounts size (seen statement arrivals) := by
  have closed : ∀ key, (statement.group? key).isSome = false := by
    intro key
    rw [group?, groups]
    rfl
  have none : ∀ others, kept (seen statement others) = [] := by
    intro others
    rw [kept_seen, List.filter_eq_nil_iff]
    intro held _ isOpen
    cases (closed held.2).symm.trans isOpen
  refine ⟨windowed, ?_, ?_, ?_, ?_, fun _ => groups, ?_⟩
  · rw [window]
    exact Nat.zero_le _
  · rw [rtake_seen, none, covered, window]
    exact List.suffix_refl _
  · rw [none, covered, window]
    exact List.suffix_refl _
  · rw [none]
    intro held member
    cases member
  · intro _ used running
    rcases void with unused | ended
    · exact absurd unused used
    · cases running.symm.trans ended

/-- The rows of the window of which the group is still open are what is left of it. -/
theorem Without.covered_eq
    {next : Statement}
    {keys : List GroupKey}
    (without : Without keys next statement)
    (placed : ∀ held ∈ statement.window, ∃ group ∈ statement.groups,
      (group.key == held.group) = true) :
    next.covered = statement.covered.filter fun held => (next.group? held.2).isSome := by
  have same : ∀ {group key : GroupKey}, (group == key) = true →
      (keys.all fun dropped => !group.same dropped) = keys.all fun dropped => !key.same dropped := by
    intro group key same
    refine congrArg (List.all keys) (funext fun dropped => congrArg not ?_)
    exact BEq.congr_left same
  have stays : ∀ held ∈ statement.window,
      (keys.all fun dropped => !held.group.same dropped) = (next.group? held.group).isSome := by
    intro held member
    obtain ⟨group, isGroup, inGroup⟩ := placed held member
    rw [Bool.eq_iff_iff, group?_isSome_iff, without.groups]
    constructor
    · intro kept
      exact ⟨group, List.mem_filter.mpr ⟨isGroup, (same inGroup).trans kept⟩, inGroup⟩
    · rintro ⟨other, isOther, inOther⟩
      exact (same inOther).symm.trans (List.mem_filter.mp isOther).2
  rw [covered, without.window, List.filter_congr stays, covered, List.filter_map]
  rfl

/-- Dropping groups with their rows is accounted for. -/
theorem Accounts.without
    {next : Statement}
    {arrivals : List Arrival}
    {keys : List GroupKey}
    (accounts : statement.Accounts size arrivals)
    (placed : ∀ held ∈ statement.window, ∃ group ∈ statement.groups,
      (group.key == held.group) = true)
    (without : Without keys next statement)
    (nothing : statement.reclaimAfter = none ∨ statement.plan.isGrouped = false → keys = []) :
    next.Accounts size (seen next arrivals) := by
  have covered := without.covered_eq placed
  refine ⟨⟨without.plan ▸ accounts.source, without.engine.trans accounts.noEngine⟩,
    ?_, ?_, ?_, ?_, ?_, ?_⟩
  · rw [without.window]
    exact Nat.le_trans (List.length_filter_le _ _) accounts.bounded
  · rw [rtake_seen, kept_seen, covered]
    exact accounts.latest.filter _
  · rw [kept_seen, covered]
    exact accounts.earlier.filter _
  · intro held member
    rw [kept_seen] at member
    exact (List.mem_filter.mp member).2
  · intro unused
    rw [without.groups, accounts.unused (without.plan ▸ unused)]
    rfl
  · intro never used running
    rw [without.plan] at never used
    rw [without.reclaimAfter] at never
    have isOpen : ∀ held ∈ kept arrivals, (next.group? held.2).isSome = true := by
      intro held member
      have before := accounts.isOpen held member
      rw [group?_isSome_iff] at before ⊢
      rw [without.groups, nothing never]
      simpa using before
    rw [seen_eq_self isOpen]
    exact accounts.whole never used (without.stopped.symm.trans running)

/-- Opening a group changes nothing else, and closes no group. -/
theorem group?_openGroup
    {opened : Statement}
    {obtained : StateStore}
    {key : GroupKey}
    {handles : List StateHandle}
    (outcome : statement.openGroup store key occasion = (opened, obtained, .ok handles)) :
    (∃ groups, opened = { statement with groups }) ∧
      (opened.group? key).isSome = true ∧
      ∀ other, (statement.group? other).isSome = true → (opened.group? other).isSome = true := by
  obtain ⟨group, isOpen, _⟩ := group?_of_openGroup outcome
  rcases found : statement.group? key with _ | group
  · refine ⟨⟨_, (eq_of_openGroup_ok found outcome).1⟩, by rw [isOpen]; rfl, fun other before => ?_⟩
    rw [group?_isSome_iff] at before ⊢
    obtain ⟨held, member, same⟩ := before
    rw [(eq_of_openGroup_ok found outcome).1]
    exact ⟨held, List.mem_append_left _ member, same⟩
  · rw [openGroup_of_open found] at outcome
    cases outcome
    exact ⟨⟨_, rfl⟩, by rw [isOpen]; rfl, fun _ before => before⟩

/-- Aggregating a row opens and closes no group. -/
theorem isSome_group?_aggregateRow
    {obtained : StateStore}
    {key : GroupKey}
    {handles : List StateHandle}
    {row : Row}
    (other : GroupKey) :
    ((statement.aggregateRow obtained key handles row occasion).1.group? other).isSome =
      (statement.group? other).isSome := by
  rw [Bool.eq_iff_iff, group?_isSome_iff, group?_isSome_iff]
  constructor
  · rintro ⟨group, isGroup, same⟩
    obtain ⟨before, isBefore, rfl⟩ := mem_groups_aggregateRow.mp isGroup
    refine ⟨before, isBefore, ?_⟩
    split at same <;> exact same
  · rintro ⟨before, isBefore, same⟩
    refine ⟨_, mem_groups_aggregateRow.mpr ⟨before, isBefore, rfl⟩, ?_⟩
    split <;> exact same

/-- After a row the window has the latest of its rows and of this one. -/
theorem covered_aggregateRow
    {obtained : StateStore}
    {key : GroupKey}
    {handles : List StateHandle}
    {row : Row}
    (windowed : statement.plan.window = some size) :
    (statement.aggregateRow obtained key handles row occasion).1.covered =
      (statement.covered ++ [(row, key)]).rtake size := by
  simp only [covered, window_aggregateRow, windowWith, windowed, List.map_drop, List.map_append,
    List.map_cons, List.map_nil, List.rtake, List.length_append, List.length_map,
    List.length_singleton]

/-- What is kept of the latest rows, with one more, is in the latest of a window and this one. -/
theorem kept_rtake_suffix
    {arrivals : List Arrival}
    {covered : List (Row × GroupKey)}
    (latest : kept (arrivals.rtake size) <:+ covered)
    (accepted : Row × GroupKey) :
    kept ((arrivals ++ [arrivalOf accepted]).rtake size) <:+
      (covered ++ [accepted]).rtake size := by
  cases size with
  | zero =>
      rw [List.rtake_zero, List.rtake_zero]
      exact List.nil_suffix
  | succ size =>
      have later : arrivals.rtake size <:+ arrivals.rtake (size + 1) := by
        refine suffix_rtake (List.drop_suffix _ _) ?_
        rw [length_rtake]
        omega
      rw [List.rtake_concat_succ, List.rtake_concat_succ, kept_append]
      refine List.suffix_append_self_iff.mpr (suffix_rtake ((kept_suffix later).trans latest) ?_)
      refine Nat.le_trans (Arrival.length_kept_le _) ?_
      rw [length_rtake]
      exact Nat.min_le_left _ _

/-- A row that is aggregated is accounted for. -/
theorem Accounts.aggregated
    {opened : Statement}
    {obtained : StateStore}
    {key : GroupKey}
    {handles : List StateHandle}
    {arrivals : List Arrival}
    (accounts : statement.Accounts size arrivals)
    (used : statement.plan.aggregates ≠ [])
    (outcome : statement.openGroup store key occasion = (opened, obtained, .ok handles))
    (row : Row)
    (moment : Occasion) :
    let next := (opened.aggregateRow obtained key handles row moment).1
    next.Accounts size (seen next (arrivals ++ [arrivalOf (row, key)])) := by
  intro next
  obtain ⟨⟨groups, rfl⟩, isOpen, stays⟩ := group?_openGroup outcome
  have unchanged : next.plan = statement.plan ∧ next.engine = statement.engine ∧
      next.reclaimAfter = statement.reclaimAfter ∧ next.stopped = statement.stopped := by
    simp only [next, aggregateRow_fst]
    exact ⟨rfl, rfl, rfl, rfl⟩
  obtain ⟨plan, engine, reclaimAfter, stopped⟩ := unchanged
  obtain ⟨eventType, source⟩ := accounts.source
  have windowed : statement.plan.window = some size := by
    rw [Plan.window, source]
    rfl
  have covered : next.covered = (statement.covered ++ [(row, key)]).rtake size :=
    covered_aggregateRow windowed
  have keptNow : kept (arrivals ++ [arrivalOf (row, key)]) = kept arrivals ++ [(row, key)] := by
    rw [kept_append]
    rfl
  have allOpen : ∀ held ∈ kept (arrivals ++ [arrivalOf (row, key)]),
      (next.group? held.2).isSome = true := by
    intro held member
    rw [keptNow, List.mem_append, List.mem_singleton] at member
    rw [isSome_group?_aggregateRow]
    rcases member with before | rfl
    · exact stays _ (accounts.isOpen held before)
    · exact isOpen
  rw [seen_eq_self allOpen]
  refine ⟨⟨⟨eventType, plan ▸ source⟩, engine.trans accounts.noEngine⟩, ?_, ?_, ?_, allOpen, ?_, ?_⟩
  · rw [← length_covered, covered, length_rtake]
    exact Nat.min_le_left _ _
  · rw [covered]
    exact kept_rtake_suffix accounts.latest (row, key)
  · rw [covered, keptNow]
    exact (List.drop_suffix _ _).trans (List.suffix_append_self_iff.mpr accounts.earlier)
  · intro unused
    exact absurd (plan ▸ unused) used
  · intro never _ running arrival member
    rw [reclaimAfter, plan] at never
    rcases List.mem_append.mp member with before | now
    · exact accounts.whole never used (stopped.symm.trans running) arrival before
    · rw [List.mem_singleton.mp now]
      rfl

/-- An event is accounted for. -/
theorem Accounts.send
    {arrivals : List Arrival}
    (accounts : statement.Accounts size arrivals)
    (placed : ∀ held ∈ statement.window, ∃ group ∈ statement.groups,
      (group.key == held.group) = true)
    (event : Event) :
    let next := (statement.send store event occasion).1
    next.Accounts size
      (seen next (arrivals ++ (statement.accepts? event occasion).toList.map arrivalOf)) := by
  intro next
  rcases accounts.toWindowed.send_cases store event occasion with
    ⟨rejected, same⟩ | ⟨row, key, accepted, step⟩
  · have isNext : next = statement := same
    rw [rejected, isNext]
    simp only [Option.toList_none, List.map_nil, List.append_nil]
    rw [seen_eq_self accounts.isOpen]
    exact accounts
  · rw [accepted]
    change Accepted statement row key next at step
    generalize next = after at step
    cases step with
    | unaggregated unused =>
        have groups := accounts.unused unused
        have window : statement.window = [] := by
          rw [List.eq_nil_iff_forall_not_mem]
          intro held member
          obtain ⟨group, isGroup, _⟩ := placed held member
          rw [groups] at isGroup
          cases isGroup
        exact accounts.toWindowed.accounts_of_nothing groups window (.inl unused) _
    | refused running left =>
        rw [stop_of_running running]
        refine Windowed.accounts_of_nothing ?_ rfl rfl (.inr rfl) _
        refine ⟨accounts.source, ?_⟩
        change statement.engine.map Engine.stop = none
        rw [accounts.noEngine]
        rfl
    | aggregated used opening moment outcome => exact accounts.aggregated used outcome row moment

/-- A point of time is accounted for. -/
theorem Accounts.advanceTime
    {arrivals : List Arrival}
    (accounts : statement.Accounts size arrivals)
    (placed : ∀ held ∈ statement.window, ∃ group ∈ statement.groups,
      (group.key == held.group) = true)
    (now : Int) :
    let next := (statement.advanceTime store now occasion).1
    next.Accounts size (seen next arrivals) := by
  obtain ⟨keys, without, nothing⟩ := accounts.toWindowed.without_advanceTime store now occasion
  exact accounts.without placed without nothing

/-- A window that is not longer than what is kept of the latest rows has just these. -/
theorem Accounts.covered_of_short
    {arrivals : List Arrival}
    (accounts : statement.Accounts size arrivals)
    (short : statement.window.length ≤ (kept (arrivals.rtake size)).length) :
    statement.covered = kept (arrivals.rtake size) := by
  refine (accounts.latest.eq_of_length_le ?_).symm
  rw [length_covered]
  exact short

/-- When none of the latest rows was dropped, the window has all of them and no other. -/
theorem Accounts.covered_of_none_dropped
    {arrivals : List Arrival}
    (accounts : statement.Accounts size arrivals)
    (held : ∀ arrival ∈ arrivals.rtake size, arrival.dropped = false) :
    statement.covered = kept (arrivals.rtake size) := by
  refine accounts.covered_of_short ?_
  rw [Arrival.kept_of_none_dropped held, List.length_map, length_rtake]
  refine Nat.le_min.mpr ⟨accounts.bounded, ?_⟩
  rw [← length_covered]
  exact Nat.le_trans accounts.earlier.length_le (Arrival.length_kept_le arrivals)

/-- When no group is ever dropped, the window has what is kept of the latest rows. -/
theorem Accounts.covered_of_never_dropped
    {arrivals : List Arrival}
    (accounts : statement.Accounts size arrivals)
    (ended : statement.stopped = true → statement.groups = [])
    (never : statement.reclaimAfter = none ∨ statement.plan.isGrouped = false) :
    statement.covered = kept (arrivals.rtake size) := by
  have of_closed : statement.groups = [] → statement.covered = kept (arrivals.rtake size) := by
    intro groups
    have none : kept arrivals = [] := by
      rw [List.eq_nil_iff_forall_not_mem]
      intro held member
      have isOpen := accounts.isOpen held member
      rw [group?, groups] at isOpen
      cases isOpen
    have nothing : statement.covered = [] := by
      have earlier := accounts.earlier
      rw [none] at earlier
      exact List.suffix_nil.mp earlier
    have latest := accounts.latest
    rw [nothing] at latest
    rw [nothing, List.suffix_nil.mp latest]
  by_cases unused : statement.plan.aggregates = []
  · exact of_closed (accounts.unused unused)
  · cases running : statement.stopped with
    | true => exact of_closed (ended running)
    | false =>
        refine accounts.covered_of_none_dropped fun arrival member => ?_
        exact accounts.whole never unused running arrival ((List.drop_suffix _ _).subset member)

end Stepping

/-- A statement that has just been activated has accepted nothing. -/
theorem accounts_activate
    {id : StatementId}
    {plan : Plan}
    {store : StateStore}
    {settings : Settings}
    {patience : Nat}
    {now : Int}
    {statement : Statement}
    {size : Nat}
    (activated : (activate id plan store settings patience now).2 = .ok statement)
    (windowed : plan.window = some size) :
    statement.Accounts size [] := by
  have source : ∃ eventType, plan.source = .stream eventType (some size) := by
    rw [Plan.window] at windowed
    cases isSource : plan.source with
    | stream eventType window =>
        rw [isSource] at windowed
        exact ⟨eventType, congrArg _ windowed⟩
    | _ =>
        rw [isSource] at windowed
        cases windowed
  have noEngine : (idle id plan settings patience now).engine = none := by
    obtain ⟨eventType, isStream⟩ := source
    simp only [idle, isStream]
  have of_nothing : ∀ {active : Statement}, active.plan = plan → active.engine = none →
      active.window = [] → (plan.aggregates = [] → active.groups = []) →
        active.Accounts size [] := by
    intro active isPlan isEngine window unused
    refine ⟨⟨isPlan ▸ source, isEngine⟩, ?_, ?_, ?_, ?_, isPlan ▸ unused, ?_⟩
    · rw [window]
      exact Nat.zero_le _
    · rw [List.rtake_nil]
      exact List.nil_suffix
    · rw [covered, window]
      exact List.nil_suffix
    · exact fun _ member => nomatch member
    · exact fun _ _ _ _ member => nomatch member
  rw [activate] at activated
  split at activated
  next =>
      cases activated
      exact of_nothing rfl noEngine rfl fun _ => rfl
  next aggregated =>
      rcases opening : (idle id plan settings patience now).openGroup store .ungrouped [id] with
        ⟨opened, obtained, error | handles⟩
      · rw [opening] at activated
        cases activated
      · rw [opening] at activated
        cases activated
        obtain ⟨⟨groups, rfl⟩, _⟩ := group?_openGroup opening
        refine of_nothing rfl noEngine rfl fun noAggregates => ?_
        rw [noAggregates] at aggregated
        simp at aggregated

end Statement

end EventQuery
