import EventQuery.Proofs.Statement.Apart
import EventQuery.Proofs.Statement.Distinct
import EventQuery.Proofs.Statement.Twin

namespace EventQuery

/-!
# Turns of twins

Twins that take the same events and points of time tell the same and stay twins, however their
occasions differ.  A state that cannot be created stops both of them.
-/

/-- An output as another statement tells it, with the reports of failures worded in another way. -/
def StatementOutput.relabel (output : StatementOutput) (id : StatementId)
    (rename : String → String) : StatementOutput :=
  { output with statement := id, error := output.error.map (ActivationError.relabel rename) }

theorem StatementOutput.isBlank_relabel
    (output : StatementOutput)
    (id : StatementId)
    (rename : String → String) :
    (output.relabel id rename).isBlank = output.isBlank := by
  rw [isBlank, relabel, isBlank, Option.isNone_map]

/-- The pairs of an event are the same on every occasion when the join condition is steady. -/
theorem Pairing.ofEvent_of_steady
    {condition : Option Node}
    (steady : ∀ node ∈ condition, node.Steady)
    (left right : JoinSide)
    (outer : Bool)
    (buffers : JoinBuffers)
    (event : Event)
    (occasion other : Occasion) :
    ofEvent left right outer condition buffers event occasion =
      ofEvent left right outer condition buffers event other := by
  have passes : ∀ row (occasion other : Occasion),
      Pairing.passes condition row occasion = Pairing.passes condition row other := by
    intro row occasion other
    cases condition with
    | none => rfl
    | some node => exact (steady node rfl).passes row occasion other
  have select : ∀ rows position (occasion other : Occasion),
      Pairing.select condition occasion position rows =
        Pairing.select condition other position rows := by
    intro rows
    induction rows with
    | nil => exact fun _ _ _ => rfl
    | cons row rest inductionHypothesis =>
        intro position occasion other
        rw [Pairing.select, Pairing.select, inductionHypothesis (position + 1) occasion other,
          passes row (position :: occasion) (position :: other)]
  rw [ofEvent, ofEvent, ofLeft, ofLeft, ofRight, ofRight, select _ 0 (0 :: occasion) (0 :: other),
    select _ 0 (1 :: occasion) (1 :: other)]

namespace Statement

theorem report_relabel
    (output : StatementOutput)
    (result : RowResult)
    (id : StatementId)
    (rename : String → String) :
    report (output.relabel id rename) result = (report output result).relabel id rename := by
  cases result <;> rfl

/-- A statement without an error goes on when the faults of its pattern are told. -/
theorem settle_of_fine
    (statement : Statement)
    (store : StateStore)
    {output : StatementOutput}
    (fine : output.error = none) :
    statement.settle store output =
      ((statement.drain output).1, store, (statement.drain output).2) := by
  have noError : (statement.drain output).2.error = none := (error_drain statement output).trans fine
  simp only [settle, noError, Option.isSome_none, Bool.false_eq_true, if_false]

namespace Matches

variable {first second : Statement}

theorem eq_with
    (same : first.Matches second) :
    ∃ id groups, second = { first with id, groups } :=
  ⟨second.id, second.groups, same⟩

/-- Sources make the same rows of an event, and hold the same afterwards. -/
theorem rowsOf
    (same : first.Matches second)
    (steady : first.plan.Steady)
    (event : Event)
    (occasion otherOccasion : Occasion) :
    (first.rowsOf event occasion).1.Matches (second.rowsOf event otherOccasion).1 ∧
      (second.rowsOf event otherOccasion).2 = (first.rowsOf event occasion).2 := by
  obtain ⟨id, groups, rfl⟩ := same.eq_with
  rcases source : first.plan.source with ⟨eventType, window⟩ | pattern |
    ⟨left, right, outer, condition⟩
  · simp only [Statement.rowsOf, source, and_true]
    rfl
  · rcases engine : first.engine with _ | held <;>
      simp only [Statement.rowsOf, source, engine, Matches, and_self]
  · simp only [Statement.rowsOf, source]
    refine ⟨rfl, Pairing.ofEvent_of_steady (fun node isNode => ?_) left right outer _ event _ _⟩
    cases isNode
    exact steady.join source

/-- A point of time completes the same matches. -/
theorem matchesAt
    (same : first.Matches second)
    (now : Int) :
    (first.matchesAt now).1.Matches (second.matchesAt now).1 ∧
      (second.matchesAt now).2 = (first.matchesAt now).2 := by
  obtain ⟨id, groups, rfl⟩ := same.eq_with
  rcases engine : first.engine with _ | held <;>
    simp only [Statement.matchesAt, engine, Matches, and_self]

/-- The same faults are told of a pattern. -/
theorem drain
    {rename : String → String}
    (same : first.Matches second)
    (output : StatementOutput)
    (id : StatementId) :
    (first.drain output).1.Matches (second.drain (output.relabel id rename)).1 ∧
      (second.drain (output.relabel id rename)).2 = (first.drain output).2.relabel id rename := by
  obtain ⟨_, groups, rfl⟩ := same.eq_with
  rcases engine : first.engine with _ | held
  · simp only [Statement.drain, engine, Matches, and_self]
  · simp only [Statement.drain, engine, Matches, true_and]
    rfl

theorem stop
    (same : first.Matches second)
    (store other : StateStore) :
    (first.stop store).1.Matches (second.stop other).1 := by
  obtain ⟨id, groups, rfl⟩ := same.eq_with
  rw [Statement.stop, Statement.stop]
  dsimp only
  split <;> rfl

/-- After its rows a statement is settled, and another one that matches it in the same way. -/
theorem settle
    {rename : String → String}
    (same : first.Matches second)
    (store other : StateStore)
    (output : StatementOutput)
    (id : StatementId) :
    (first.settle store output).1.Matches (second.settle other (output.relabel id rename)).1 ∧
      (second.settle other (output.relabel id rename)).2.2 =
        (first.settle store output).2.2.relabel id rename := by
  obtain ⟨matched, told⟩ :
      (first.drain output).1.Matches (second.drain (output.relabel id rename)).1 ∧ _ :=
    same.drain output id
  rcases draining : first.drain output with ⟨drained, final⟩
  rcases otherDraining : second.drain (output.relabel id rename) with ⟨otherDrained, otherFinal⟩
  rw [draining, otherDraining] at matched told
  obtain rfl : otherFinal = _ := told
  have failed : (final.relabel id rename).error.isSome = final.error.isSome := Option.isSome_map
  simp only [Statement.settle, draining, otherDraining, failed]
  split
  next => exact ⟨matched.stop store other, rfl⟩
  next => exact ⟨matched, rfl⟩

end Matches

section Dropping

variable {statement : Statement} {store : StateStore} {keys : List GroupKey} {key : GroupKey}

/-- A key is among some keys when an equal one is. -/
theorem any_same_congr
    {own : GroupKey}
    (same : (own == key) = true) :
    (keys.any fun dropped => own.same dropped) = keys.any (· == key) := by
  congr 1
  funext dropped
  exact (BEq.congr_left same).trans BEq.comm

/-- Groups are dropped with their rows, all at once or one after another. -/
theorem dropGroups_fst
    (statement : Statement)
    (store : StateStore)
    (keys : List GroupKey) :
    (statement.dropGroups store keys).1 =
      { statement with
          groups := statement.groups.filter fun group =>
            !keys.any fun key => group.key.same key
          window := statement.window.filter fun row =>
            !keys.any fun key => row.group.same key } := by
  induction keys generalizing statement store with
  | nil => simp [dropGroups]
  | cons key rest inductionHypothesis =>
      have later := inductionHypothesis (statement.dropGroup store key).1
        (statement.dropGroup store key).2
      refine later.trans ?_
      simp only [dropGroup, List.filter_filter, List.any_cons, Bool.not_or, Bool.and_comm]

/-- A group that is dropped is not open; the others are as before. -/
theorem lastSeen_dropGroups :
    (statement.dropGroups store keys).1.lastSeen key =
      if keys.any (· == key) then none else statement.lastSeen key := by
  rw [lastSeen, group?, dropGroups_fst, List.find?_filter]
  split
  next dropped =>
      rw [List.find?_eq_none.mpr]
      · rfl
      · intro group _ found
        simp only [decide_eq_true_eq] at found
        rw [any_same_congr found.2, dropped] at found
        cases found.1
  next kept =>
      rw [lastSeen, group?]
      congr 2
      funext group
      cases same : group.key.same key with
      | false => simp
      | true =>
          have among : (keys.any fun dropped => group.key.same dropped) = _ := any_same_congr same
          simp [among, kept]

theorem stateAt_dropGroups
    (statement : Statement)
    (store : StateStore)
    (keys : List GroupKey)
    (key : GroupKey)
    (stateKey : StateKey) :
    (statement.dropGroups store keys).2.stateAt statement.id key stateKey =
      if keys.any (· == key) then none else store.stateAt statement.id key stateKey := by
  induction keys generalizing statement store with
  | nil => rfl
  | cons dropped rest inductionHypothesis =>
      have later := inductionHypothesis (statement.dropGroup store dropped).1
        (store.releaseGroup statement.id dropped).1
      have first : (store.releaseGroup statement.id dropped).1.stateAt statement.id key stateKey =
          if dropped == key then none else store.stateAt statement.id key stateKey := by
        rw [StateStore.stateAt_releaseGroup, StateStore.sameGroup, beq_self_eq_true, Bool.true_and]
      refine later.trans ?_
      rw [List.any_cons]
      change (if _ then none else (store.releaseGroup statement.id dropped).1.stateAt statement.id
        key stateKey) = _
      rw [first]
      cases dropped == key <;> simp

/-- A group is dropped as idle when its last row was long enough ago. -/
theorem Tied.any_idleKeys
    (tied : statement.Tied store)
    (after : Int)
    (key : GroupKey) :
    ((statement.idleKeys after).any (· == key)) =
      (statement.lastSeen key).any fun time => decide (after ≤ statement.now - time) := by
  rw [Bool.eq_iff_iff, List.any_eq_true, lastSeen, Option.any_map]
  constructor
  · rintro ⟨idle, isIdle, same⟩
    obtain ⟨group, member, rfl⟩ := List.mem_map.mp isIdle
    obtain ⟨isOpen, late⟩ := List.mem_filter.mp member
    rw [tied.group?_of_key isOpen same]
    exact late
  · intro late
    rcases isOpen : statement.group? key with _ | group
    · rw [isOpen] at late
      cases late
    · rw [isOpen] at late
      obtain ⟨member, same⟩ := mem_of_group? isOpen
      exact ⟨group.key, List.mem_map_of_mem (List.mem_filter.mpr ⟨member, late⟩), same⟩

end Dropping

namespace Twin

variable {visible : GroupKey → Prop} {first second : Statement} {store other : StateStore}
  {rename : String → String} {occasion otherOccasion : Occasion}

/-- Twins are twins when less is looked at, as long as the groups of the window still are. -/
theorem mono
    {fewer : GroupKey → Prop}
    (twin : Twin visible first store second other)
    (narrower : ∀ key, fewer key → visible key)
    (covered : ∀ held ∈ first.window, fewer held.group) :
    Twin fewer first store second other where
  same := twin.same
  seen := fun key isVisible => twin.seen key (narrower key isVisible)
  states :=
    { twin.states with
      states := fun group isVisible => twin.states.states group (narrower group isVisible)
      steady := fun group isVisible => twin.states.steady group (narrower group isVisible) }
  tied := twin.tied
  otherTied := twin.otherTied
  covered := covered

/-- Twins stay twins whatever the stores hold of other statements. -/
theorem of_sameOf
    {left otherLeft : StateStore}
    (twin : Twin visible first store second other)
    (sound : left.Sound)
    (otherSound : otherLeft.Sound)
    (same : StateStore.SameOf first.id left store)
    (otherSame : StateStore.SameOf second.id otherLeft other) :
    Twin visible first left second otherLeft := by
  have states := twin.states.of_sameStates sound fun group _ => same.states first.id group rfl
  have otherStates :=
    states.symm.of_sameStates otherSound fun group _ => otherSame.states second.id group rfl
  exact twin.of_alike otherStates.symm same.lookups otherSame.lookups

/-- Twins stay twins when what their sources hold changes in the same way. -/
theorem of_same
    {next otherNext : Statement}
    (twin : Twin visible first store second other)
    (matched : next.Matches otherNext)
    (same : SameHolding next first)
    (otherSame : SameHolding otherNext second) :
    Twin visible next store otherNext other where
  same := matched
  seen := by
    simp only [lastSeen, group?, same.groups, otherSame.groups]
    exact twin.seen
  states := by
    rw [same.id, otherSame.id]
    exact twin.states
  tied := twin.tied.of_same same
  otherTied := twin.otherTied.of_same otherSame
  covered := by
    rw [same.window]
    exact twin.covered

/-- Statements without groups and rows are twins when they match. -/
theorem of_nothing
    (same : first.Matches second)
    (tied : first.Tied store)
    (otherTied : second.Tied other)
    (sound : store.Sound)
    (otherSound : other.Sound)
    (groups : first.groups = [])
    (otherGroups : second.groups = [])
    (window : first.window = []) :
    Twin visible first store second other := by
  have nothing : ∀ {statement : Statement} {held : StateStore}, statement.Tied held →
      statement.groups = [] → ∀ group key, held.stateAt statement.id group key = none := by
    intro statement held tied groups group key
    rw [← Option.not_isSome_iff_eq_none, StateStore.stateAt_isSome, Option.isSome_iff_exists]
    rintro ⟨handle, found⟩
    obtain ⟨⟨opened, member, _⟩, _⟩ := tied.known found
    rw [groups] at member
    cases member
  exact {
    same := same
    seen := fun key _ => by simp only [lastSeen, group?, groups, otherGroups]
    states := {
      sound := sound
      otherSound := otherSound
      states := fun group _ key =>
        (nothing tied groups group key).trans (nothing otherTied otherGroups group key).symm
      steady := fun group _ key state found => by
        rw [nothing tied groups] at found
        cases found }
    tied := tied
    otherTied := otherTied
    covered := by
      rw [window]
      exact List.forall_mem_nil _ }

/-- What is told of twins before they take anything is the same. -/
theorem blank
    (twin : Twin visible first store second other)
    (rename : String → String) :
    StatementOutput.blank second.id second.plan.name =
      (StatementOutput.blank first.id first.plan.name).relabel second.id rename := by
  rw [twin.plan]
  rfl

/-- Rows have the same results in both twins, up to one that stops both. -/
theorem evaluateRows
    {rows : List Row}
    {output : StatementOutput}
    (twin : Twin visible first store second other)
    (relabels : first.plan.Relabels rename first.id second.id)
    (running : first.stopped = false)
    (areVisible : ∀ row ∈ rows, ∀ occasion key,
      first.plan.select? row occasion = .ok (some key) → visible key)
    (noError : output.error = none)
    (occasion otherOccasion : Occasion)
    (position : Nat) :
    let ran := Statement.evaluateRows occasion first store output position rows
    let otherRan := Statement.evaluateRows otherOccasion second other
      (output.relabel second.id rename) position rows
    otherRan.2.2 = ran.2.2.relabel second.id rename ∧ ran.1.Matches otherRan.1 ∧
      (ran.2.2.error = none → Twin visible ran.1 ran.2.1 otherRan.1 otherRan.2.1) := by
  induction rows generalizing first store second other output position with
  | nil => exact ⟨rfl, twin.same, fun _ => twin⟩
  | cons row rest inductionHypothesis =>
      rw [List.forall_mem_cons] at areVisible
      obtain ⟨result, changed, updated, otherChanged, otherUpdated, evaluating, otherEvaluating,
        changedTwin⟩ | ⟨error, updated, otherUpdated, evaluating, otherEvaluating⟩ :=
        twin.evaluateRow relabels running row (position :: occasion) (position :: otherOccasion)
          (areVisible.1 (position :: occasion))
      · obtain ⟨stillRunning, moves⟩ := moves_evaluateRow running evaluating
        obtain ⟨_, otherMoves⟩ :=
          moves_evaluateRow (twin.stopped.trans running) otherEvaluating
        have later := inductionHypothesis changedTwin
          (by rw [moves.same.1, moves.same.2, otherMoves.same.1]; exact relabels) stillRunning
          (by rw [moves.same.2]; exact areVisible.2) ((error_report output result).trans noError)
          (position + 1)
        simp only [Statement.evaluateRows, evaluating, otherEvaluating, report_relabel]
        rw [otherMoves.same.1] at later
        exact later
      · simp only [Statement.evaluateRows, evaluating, otherEvaluating]
        exact ⟨rfl, twin.same, fun noError => absurd noError (Option.some_ne_none _)⟩

/-- After the same rows twins tell the same, and are still twins or both stopped. -/
theorem settleRows
    {rows : List Row}
    {output told otherTold : StatementOutput}
    {changed otherChanged : Statement}
    {updated otherUpdated : StateStore}
    (twin : Twin visible first store second other)
    (relabels : first.plan.Relabels rename first.id second.id)
    (running : first.stopped = false)
    (areVisible : ∀ row ∈ rows, ∀ occasion key,
      first.plan.select? row occasion = .ok (some key) → visible key)
    (noError : output.error = none)
    (outcome :
      Statement.evaluateRows occasion first store output 0 rows = (changed, updated, told))
    (otherOutcome :
      Statement.evaluateRows otherOccasion second other (output.relabel second.id rename) 0 rows =
        (otherChanged, otherUpdated, otherTold)) :
    (otherChanged.settle otherUpdated otherTold).2.2 =
        (changed.settle updated told).2.2.relabel second.id rename ∧
      Twin visible (changed.settle updated told).1 (changed.settle updated told).2.1
        (otherChanged.settle otherUpdated otherTold).1
        (otherChanged.settle otherUpdated otherTold).2.1 := by
  obtain ⟨moves, ends⟩ := moves_settle (rowsRun_evaluateRows running noError outcome)
  obtain ⟨otherMoves, otherEnds⟩ := moves_settle (rowsRun_evaluateRows
    (twin.stopped.trans running) (by rw [StatementOutput.relabel, noError]; rfl) otherOutcome)
  have ran := twin.evaluateRows relabels running areVisible noError occasion otherOccasion 0
  rw [outcome, otherOutcome] at ran
  obtain ⟨rfl, matched, stillTwin⟩ : otherTold = told.relabel second.id rename ∧ _ := ran
  obtain ⟨settledMatch, tells⟩ :
      (changed.settle updated told).1.Matches
        (otherChanged.settle otherUpdated (told.relabel second.id rename)).1 ∧ _ :=
    matched.settle updated otherUpdated told second.id
  refine ⟨tells, ?_⟩
  rcases failure : told.error with _ | error
  · have otherFine : (told.relabel second.id rename).error = none := by
      rw [StatementOutput.relabel, failure]
      rfl
    rw [settle_of_fine changed updated failure,
      settle_of_fine otherChanged otherUpdated otherFine] at settledMatch ⊢
    exact (stillTwin failure).of_same settledMatch (.drain _ _) (.drain _ _)
  -- Both are stopped by the same row, and nothing is held for them any more.
  · obtain ⟨tied, sound⟩ := twin.tied.moves twin.states.sound moves
    obtain ⟨otherTied, otherSound⟩ := twin.otherTied.moves twin.states.otherSound otherMoves
    have otherFailure : (told.relabel second.id rename).error.isSome = true := by
      rw [StatementOutput.relabel, failure]
      rfl
    rw [failure] at ends
    obtain ⟨groups, window⟩ := tied.ended ends
    obtain ⟨otherGroups, _⟩ := otherTied.ended (otherEnds.trans otherFailure)
    exact .of_nothing settledMatch tied otherTied sound otherSound groups otherGroups window

/-- Twins that have taken an event or a point of time settle alike after the rows that it made. -/
theorem settleMoved
    {moved otherMoved changed otherChanged : Statement}
    {rows : List Row}
    {output told otherTold : StatementOutput}
    {updated otherUpdated : StateStore}
    (twin : Twin visible first store second other)
    (relabels : first.plan.Relabels rename first.id second.id)
    (running : first.stopped = false)
    (matched : moved.Matches otherMoved)
    (same : SameHolding moved first)
    (otherSame : SameHolding otherMoved second)
    (areVisible : ∀ row ∈ rows, ∀ occasion key,
      first.plan.select? row occasion = .ok (some key) → visible key)
    (noError : output.error = none)
    (outcome :
      Statement.evaluateRows occasion moved store output 0 rows = (changed, updated, told))
    (otherOutcome :
      Statement.evaluateRows otherOccasion otherMoved other (output.relabel second.id rename) 0
        rows = (otherChanged, otherUpdated, otherTold)) :
    (otherChanged.settle otherUpdated otherTold).2.2 =
        (changed.settle updated told).2.2.relabel second.id rename ∧
      Twin visible (changed.settle updated told).1 (changed.settle updated told).2.1
        (otherChanged.settle otherUpdated otherTold).1
        (otherChanged.settle otherUpdated otherTold).2.1 := by
  have movedTwin := twin.of_same matched same otherSame
  rw [← same.plan] at relabels areVisible
  rw [← same.id, ← otherSame.id] at relabels
  rw [← otherSame.id] at otherOutcome ⊢
  exact movedTwin.settleRows relabels (same.stopped.trans running) areVisible noError outcome
    otherOutcome

/-- Twins that take an event tell the same of it, and stay twins. -/
theorem send
    (twin : Twin visible first store second other)
    (relabels : first.plan.Relabels rename first.id second.id)
    (event : Event)
    (occasion otherOccasion : Occasion)
    (areVisible : ∀ row ∈ (first.rowsOf event occasion).2.rows, ∀ occasion key,
      first.plan.select? row occasion = .ok (some key) → visible key) :
    (second.send other event otherOccasion).2.2 =
        (first.send store event occasion).2.2.relabel second.id rename ∧
      Twin visible (first.send store event occasion).1 (first.send store event occasion).2.1
        (second.send other event otherOccasion).1 (second.send other event otherOccasion).2.1 := by
  have blank := twin.blank rename
  cases running : first.stopped with
  | true =>
      rw [Statement.send, Statement.send, if_pos running, if_pos (twin.stopped.trans running)]
      exact ⟨blank, twin⟩
  | false =>
      have same := SameHolding.rowsOf first event occasion
      have otherSame := SameHolding.rowsOf second event otherOccasion
      have made := twin.same.rowsOf relabels.steady event occasion otherOccasion
      rcases making : first.rowsOf event occasion with ⟨moved, pairing⟩
      rcases otherMaking : second.rowsOf event otherOccasion with ⟨otherMoved, otherPairing⟩
      rw [making] at same areVisible
      rw [otherMaking] at otherSame
      rw [making, otherMaking] at made
      obtain ⟨matched, rfl⟩ : moved.Matches otherMoved ∧ otherPairing = pairing := made
      rcases evaluating : Statement.evaluateRows (0 :: occasion) moved store
        ((StatementOutput.blank first.id first.plan.name).addFaults otherPairing.faults) 0
        otherPairing.rows with ⟨changed, updated, told⟩
      rcases otherEvaluating : Statement.evaluateRows (0 :: otherOccasion) otherMoved other
        ((StatementOutput.blank second.id second.plan.name).addFaults otherPairing.faults) 0
        otherPairing.rows with ⟨otherChanged, otherUpdated, otherTold⟩
      simp only [Statement.send, running, twin.stopped, making, otherMaking, evaluating,
        otherEvaluating, Bool.false_eq_true, if_false]
      rw [blank] at otherEvaluating
      exact twin.settleMoved relabels running matched same otherSame areVisible rfl evaluating
        otherEvaluating

/-- Twins that drop the same of the groups that are looked at stay twins. -/
theorem dropGroups
    {keys otherKeys : List GroupKey}
    (twin : Twin visible first store second other)
    (running : first.stopped = false)
    (agree : ∀ key, visible key → (keys.any (· == key)) = otherKeys.any (· == key)) :
    Twin visible (first.dropGroups store keys).1 (first.dropGroups store keys).2
      (second.dropGroups other otherKeys).1 (second.dropGroups other otherKeys).2 := by
  obtain ⟨tied, sound⟩ :=
    twin.tied.moves twin.states.sound (moves_dropGroups first store keys running)
  obtain ⟨otherTied, otherSound⟩ := twin.otherTied.moves twin.states.otherSound
    (moves_dropGroups second other otherKeys (twin.stopped.trans running))
  have states := stateAt_dropGroups first store keys
  have otherStates := stateAt_dropGroups second other otherKeys
  have kept : ∀ held ∈ first.window,
      (!keys.any fun key => held.group.same key) =
        !otherKeys.any fun key => held.group.same key := by
    intro held member
    rw [any_same_congr BEq.rfl, any_same_congr BEq.rfl, agree _ (twin.covered held member)]
  constructor
  · rw [Matches, dropGroups_fst, dropGroups_fst, twin.window, ← List.filter_congr kept, twin.same]
  · intro key isVisible
    rw [lastSeen_dropGroups, lastSeen_dropGroups, agree key isVisible, twin.seen key isVisible]
  · rw [dropGroups_fst, dropGroups_fst]
    refine ⟨sound, otherSound, fun key isVisible stateKey => ?_,
      fun key isVisible stateKey state found => ?_⟩
    · rw [states, otherStates, agree key isVisible, twin.states.states key isVisible]
    · rw [states] at found
      split at found
      next => cases found
      next => exact twin.states.steady key isVisible stateKey state found
  · exact tied
  · exact otherTied
  · rw [dropGroups_fst]
    exact fun held member => twin.covered held (List.mem_of_mem_filter member)

/-- Twins drop the same idle groups at the same time, of those that are looked at. -/
theorem reclaim
    (twin : Twin visible first store second other)
    (running : first.stopped = false) :
    Twin visible (first.reclaim store).1 (first.reclaim store).2 (second.reclaim other).1
      (second.reclaim other).2 := by
  have otherAfter : second.reclaimAfter = first.reclaimAfter := by rw [twin.same]
  have otherEvery : second.reclaimEvery = first.reclaimEvery := by rw [twin.same]
  have otherLast : second.lastReclaim = first.lastReclaim := by rw [twin.same]
  rcases reclaiming : first.reclaimAfter with _ | after
  · simp only [Statement.reclaim, otherAfter, reclaiming]
    exact twin
  · simp only [Statement.reclaim, otherAfter, otherEvery, otherLast, reclaiming, twin.plan,
      twin.now]
    split
    next =>
        refine dropGroups (twin.of_same ?_ ⟨rfl, rfl, rfl, rfl, rfl⟩
          ⟨rfl, twin.plan.symm, rfl, rfl, rfl⟩) running fun key isVisible => ?_
        · rw [Matches, twin.same]
        · rw [twin.tied.any_idleKeys, twin.otherTied.any_idleKeys, twin.seen key isVisible, twin.now]
    next => exact twin

/-- Twins that take a point of time tell the same of it, and stay twins. -/
theorem advanceTime
    (twin : Twin visible first store second other)
    (relabels : first.plan.Relabels rename first.id second.id)
    (now : Int)
    (occasion otherOccasion : Occasion)
    (areVisible : ∀ row ∈ ({ first with now }.matchesAt now).2, ∀ occasion key,
      first.plan.select? row occasion = .ok (some key) → visible key) :
    (second.advanceTime other now otherOccasion).2.2 =
        (first.advanceTime store now occasion).2.2.relabel second.id rename ∧
      Twin visible (first.advanceTime store now occasion).1
        (first.advanceTime store now occasion).2.1 (second.advanceTime other now otherOccasion).1
        (second.advanceTime other now otherOccasion).2.1 := by
  have blank := twin.blank rename
  have otherAsleep : (second.stopped || decide (now < second.now)) =
      (first.stopped || decide (now < first.now)) := by
    rw [twin.stopped, twin.now]
  cases asleep : first.stopped || decide (now < first.now) with
  | true =>
      rw [Statement.advanceTime, Statement.advanceTime, if_pos asleep,
        if_pos (otherAsleep.trans asleep)]
      exact ⟨blank, twin⟩
  | false =>
      have running : first.stopped = false := (Bool.or_eq_false_iff.mp asleep).1
      have same := SameHolding.matchesAt first now
      have otherSame := SameHolding.matchesAt second now
      have later : ({ first with now } : Statement).Matches { second with now } := by
        rw [Matches, twin.same]
      have completed := later.matchesAt now
      rcases matching : { first with now }.matchesAt now with ⟨moved, rows⟩
      rcases otherMatching : { second with now }.matchesAt now with ⟨otherMoved, otherRows⟩
      rw [matching] at same areVisible
      rw [otherMatching] at otherSame
      rw [matching, otherMatching] at completed
      obtain ⟨matched, rfl⟩ : moved.Matches otherMoved ∧ otherRows = rows := completed
      rcases evaluating : Statement.evaluateRows (0 :: occasion) moved store
        (.blank first.id first.plan.name) 0 otherRows with ⟨changed, updated, told⟩
      rcases otherEvaluating : Statement.evaluateRows (0 :: otherOccasion) otherMoved other
        (.blank second.id second.plan.name) 0 otherRows with ⟨otherChanged, otherUpdated, otherTold⟩
      have settled := twin.settleMoved relabels running matched same otherSame areVisible rfl
        evaluating (blank ▸ otherEvaluating)
      rcases settling : changed.settle updated told with ⟨last, released, final⟩
      rcases otherSettling : otherChanged.settle otherUpdated otherTold with
        ⟨otherLast, otherReleased, otherFinal⟩
      rw [settling, otherSettling] at settled
      obtain ⟨rfl, lastTwin⟩ : otherFinal = final.relabel second.id rename ∧
          Twin visible last released otherLast otherReleased := settled
      simp only [Statement.advanceTime, asleep, otherAsleep, matching, otherMatching, evaluating,
        otherEvaluating, settling, otherSettling, lastTwin.stopped, Bool.false_eq_true, if_false]
      split
      next => exact ⟨rfl, lastTwin⟩
      next awake => exact ⟨rfl, lastTwin.reclaim (Bool.not_eq_true _ ▸ awake)⟩

/--
Two statements of one plan for which nothing is held yet become twins when they are activated, or
cannot be activated for the same reason.
-/
theorem activate
    {id number : StatementId}
    {plan : Plan}
    (sound : store.Sound)
    (otherSound : other.Sound)
    (nothing : ∀ group key, store.lookup id group key = none)
    (otherNothing : ∀ group key, other.lookup number group key = none)
    (relabels : plan.Relabels rename id number)
    (settings : Settings)
    (patience : Nat)
    (now : Int) :
    (∃ left statement otherLeft twin,
      Statement.activate id plan store settings patience now = (left, .ok statement) ∧
        Statement.activate number plan other settings patience now = (otherLeft, .ok twin) ∧
        Twin (fun _ => True) statement left twin otherLeft) ∨
    ∃ error left otherLeft,
      Statement.activate id plan store settings patience now = (left, .error error) ∧
        Statement.activate number plan other settings patience now =
          (otherLeft, .error (error.relabel rename)) := by
  let statement := idle id plan settings patience now
  let twin := idle number plan settings patience now
  have born : Twin (fun _ => True) statement store twin other :=
    .of_nothing rfl (.of_nothing rfl rfl nothing) (.of_nothing rfl rfl otherNothing) sound
      otherSound rfl rfl rfl
  cases plain : plan.isGrouped || plan.aggregates.isEmpty with
  | true =>
      refine .inl ⟨store, statement, other, twin, ?_, ?_, born⟩ <;>
        rw [Statement.activate, if_pos plain]
  | false =>
      obtain ⟨opened, obtained, group, otherOpened, otherObtained, otherGroup, opening,
        otherOpening, _, _, openedTwin⟩ | ⟨error, obtained, otherObtained, opening, otherOpening⟩ :=
        born.openGroup relabels rfl .ungrouped trivial [id] [number]
      · refine .inl ⟨obtained, opened, otherObtained, otherOpened, ?_, ?_, openedTwin⟩
        · simp only [Statement.activate, plain, Bool.false_eq_true, if_false]
          rw [opening]
        · simp only [Statement.activate, plain, Bool.false_eq_true, if_false]
          rw [otherOpening]
      · refine .inr ⟨error, (obtained.releaseStatement id).1,
          (otherObtained.releaseStatement number).1, ?_, ?_⟩
        · simp only [Statement.activate, plain, Bool.false_eq_true, if_false]
          rw [opening]
        · simp only [Statement.activate, plain, Bool.false_eq_true, if_false]
          rw [otherOpening]

end Twin

end Statement

end EventQuery
