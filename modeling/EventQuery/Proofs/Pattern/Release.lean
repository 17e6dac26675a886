import EventQuery.Proofs.Pattern.Waiting

namespace EventQuery

namespace Engine

/-!
# Releasing states

Releasing a state takes it out together with everything below it.  On the way the operands of the
states taken out are orphans.  The state that was released first is then in the gap: its parent
still lists it.
-/

section Drop

variable {compiled : CompiledPattern} {law : RowLaw compiled} {moment horizon : Nat}
  {engine : Engine} {starting : List Ticket} {gap : Option (Ticket × PatternState)}
  {orphans : List Ticket} {ticket : Ticket} {state : PatternState} {states : Pool PatternState}

/-- The engine without one state, which is listed nowhere any more. -/
def drop (engine : Engine) (state : PatternState) (states : Pool PatternState) : Engine :=
  { engine.unlist state with states }

theorem drop_frame
    (engine : Engine)
    (state : PatternState)
    (states : Pool PatternState) :
    engine.drop state states =
      { engine with
        states
        filters := (engine.unlist state).filters
        deadlines := (engine.unlist state).deadlines
        leaves := (engine.unlist state).leaves } := by
  unfold drop unlist
  split <;> rfl

theorem get?_drop_iff
    (took : engine.states.take ticket = some (state, states))
    {other : Ticket}
    {held : PatternState} :
    (engine.drop state states).states.get? other = some held ↔
      other ≠ ticket ∧ engine.states.get? other = some held := by
  change states.get? other = some held ↔ _
  rw [Pool.get?_take took]
  by_cases same : other = ticket
  · simp [same]
  · simp [same]

theorem root_drop
    (engine : Engine)
    (state : PatternState)
    (states : Pool PatternState) :
    (engine.drop state states).root = engine.root := by
  rw [drop_frame]

theorem get?_drop_of_live
    (took : engine.states.take ticket = some (state, states))
    {other : Ticket}
    {held : PatternState}
    (live : engine.states.get? other = some held)
    (apart : other ≠ ticket) :
    (engine.drop state states).states.get? other = some held :=
  (get?_drop_iff took).mpr ⟨apart, live⟩

theorem release_nil
    (engine : Engine) :
    engine.release [] = engine := by
  rw [release]

/-- Nothing is released under a ticket that finds nothing. -/
theorem release_of_gone
    {rest : List Ticket}
    (gone : engine.states.take ticket = none) :
    engine.release (ticket :: rest) = engine.release rest := by
  rw [release]
  split
  next => rfl
  next taken =>
      rw [gone] at taken
      cases taken

/-- The first of some states is dropped, and what is below it is released before the others. -/
theorem release_of_took
    {rest : List Ticket}
    (took : engine.states.take ticket = some (state, states)) :
    engine.release (ticket :: rest) =
      (engine.drop state states).release (state.progress.children ++ rest) := by
  rw [release]
  split
  next notTaken =>
      rw [took] at notTaken
      cases notTaken
  next taken =>
      cases took.symm.trans taken
      rfl

/-- Releasing a live state drops it and releases what is below it. -/
theorem release_of_take
    (took : engine.states.take ticket = some (state, states)) :
    engine.release [ticket] = (engine.drop state states).release state.progress.children := by
  rw [release_of_took took, List.append_nil]

theorem release_of_dead
    (dead : engine.states.get? ticket = none) :
    engine.release [ticket] = engine := by
  rw [release_of_gone (by rw [Pool.take, dead]; rfl), release_nil]

/-- What is found after a release was found before it. -/
theorem get?_of_release
    {tickets : List Ticket}
    {other : Ticket}
    {found : PatternState}
    (live : (engine.release tickets).states.get? other = some found) :
    engine.states.get? other = some found := by
  induction engine, tickets using Engine.release.induct with
  | case1 engine =>
      rwa [release_nil] at live
  | case2 engine ticket rest gone inductionHypothesis =>
      rw [release_of_gone gone] at live
      exact inductionHypothesis live
  | case3 engine ticket rest state states took fewer inductionHypothesis =>
      rw [release_of_took took] at live
      exact ((get?_drop_iff took).mp (inductionHypothesis live)).2

theorem evolves_drop
    (took : engine.states.take ticket = some (state, states)) :
    Evolves engine (engine.drop state states) := by
  constructor
  · intro other issued
    exact issued.take took
  · intro other found _ live
    exact ⟨found, ((get?_drop_iff took).mp live).2, rfl, rfl, rfl⟩

/-- Taking a state out keeps the others in order. -/
theorem Kept.drop
    (kept : engine.Kept law moment horizon)
    (took : engine.states.take ticket = some (state, states)) :
    (engine.drop state states).Kept law moment horizon := by
  have before : ∀ {other : Ticket} {found : PatternState},
      states.get? other = some found → engine.states.get? other = some found :=
    fun live => ((get?_drop_iff took).mp live).2
  rw [drop_frame]
  constructor
  case pattern =>
      exact kept.pattern
  case sound =>
      exact kept.sound.take took
  case horizon_le =>
      exact kept.horizon_le
  case numbered =>
      exact fun live => kept.numbered (before live)
  case numberedOnce =>
      exact fun first second => kept.numberedOnce (before first) (before second)
  case starts =>
      exact fun live => kept.starts (before live)
  case fits =>
      exact fun live => kept.fits (before live)
  case childrenNodup =>
      exact fun live => kept.childrenNodup (before live)
  case completed =>
      exact kept.completed

/-- Taking a state out leaves the states that do not run yet childless. -/
theorem Starting.drop
    (fresh : engine.Starting starting)
    (took : engine.states.take ticket = some (state, states)) :
    (engine.drop state states).Starting starting where
  nodup := fresh.nodup
  issued := fun other member => (fresh.issued other member).take took
  childless := fun other member _ live =>
    fresh.childless other member ((get?_drop_iff took).mp live).2

private theorem countP_take
    (nodup : starting.Nodup)
    (took : engine.states.take ticket = some (state, states))
    (kind : PatternState → Bool) :
    (starting.countP (fun other => (states.get? other).any kind) +
        if ticket ∈ starting ∧ kind state = true then 1 else 0) =
      starting.countP fun other => (engine.states.get? other).any kind := by
  induction starting with
  | nil =>
      simp
  | cons first rest inductionHypothesis =>
      obtain ⟨firstOutside, restNodup⟩ := List.nodup_cons.mp nodup
      have counted := inductionHypothesis restNodup
      rw [List.countP_cons, List.countP_cons, Pool.get?_take took, ← counted]
      by_cases same : first = ticket
      · subst same
        rw [if_pos rfl, Pool.get?_of_take took]
        simp [firstOutside]
      · rw [if_neg same]
        simp only [List.mem_cons, Ne.symm same, false_or]
        omega

private theorem filters_unlist
    (engine : Engine)
    (state : PatternState) :
    (engine.unlist state).filters =
      match state.filterRank? with
      | some rank => engine.filters.erase rank
      | none => engine.filters := by
  unfold unlist PatternState.filterRank?
  cases state.progress <;> rfl

private theorem deadlines_unlist
    (engine : Engine)
    (state : PatternState) :
    (engine.unlist state).deadlines =
      match state.deadlineRank? with
      | some rank => engine.deadlines.erase rank
      | none => engine.deadlines := by
  unfold unlist PatternState.deadlineRank?
  cases state.progress <;> rfl

private theorem leaves_unlist
    (indexed : engine.Indexed starting)
    (kept : engine.Kept law moment horizon)
    (live : engine.states.get? ticket = some state) :
    (engine.unlist state).leaves =
      if ticket ∉ starting ∧ state.isLeaf = true then engine.leaves - 1 else engine.leaves := by
  cases shape : state.progress with
  | filter =>
      have isRank : state.filterRank? = some ⟨state.node, state.created⟩ := by
        simp [PatternState.filterRank?, shape, Progress.wait]
      have contained := indexed.filters.contains_iff live isRank
        (kept.alone created_of_filterRank? live isRank)
      simp [unlist, shape, contained, PatternState.isLeaf, Progress.wait]
  | timer deadline =>
      have isRank : state.deadlineRank? = some ⟨deadline, state.created⟩ := by
        simp [PatternState.deadlineRank?, shape, Progress.wait]
      have contained := indexed.deadlines.contains_iff live isRank
        (kept.alone created_of_deadlineRank? live isRank)
      simp [unlist, shape, contained, PatternState.isLeaf, Progress.wait]
  | _ =>
      simp [unlist, shape, PatternState.isLeaf, Progress.wait]

/-- Taking a state out keeps the indexes. -/
theorem Indexed.drop
    (indexed : engine.Indexed starting)
    (fresh : engine.Starting starting)
    (kept : engine.Kept law moment horizon)
    (took : engine.states.take ticket = some (state, states)) :
    (engine.drop state states).Indexed starting := by
  have live := Pool.get?_of_take took
  constructor
  case filters =>
      change Waits states starting _ (engine.unlist state).filters
      rw [filters_unlist]
      cases isRank : state.filterRank? with
      | none =>
          exact indexed.filters.take took isRank
      | some rank =>
          exact indexed.filters.leave took isRank (kept.alone created_of_filterRank? live isRank)
  case deadlines =>
      change Waits states starting _ (engine.unlist state).deadlines
      rw [deadlines_unlist]
      cases isRank : state.deadlineRank? with
      | none =>
          exact indexed.deadlines.take took isRank
      | some rank =>
          exact indexed.deadlines.leave took isRank
            (kept.alone created_of_deadlineRank? live isRank)
  case filtersSorted =>
      change (engine.unlist state).filters.Sorted
      rw [filters_unlist]
      cases state.filterRank? with
      | none => exact indexed.filtersSorted
      | some rank => exact indexed.filtersSorted.erase rank
  case deadlinesSorted =>
      change (engine.unlist state).deadlines.Sorted
      rw [deadlines_unlist]
      cases state.deadlineRank? with
      | none => exact indexed.deadlinesSorted
      | some rank => exact indexed.deadlinesSorted.erase rank
  case leaves =>
      have stateCount := Pool.count_take took PatternState.isLeaf
      have startingCount := countP_take fresh.nodup took PatternState.isLeaf
      have counted := indexed.leaves
      change (engine.unlist state).leaves +
          starting.countP (fun other => (states.get? other).any PatternState.isLeaf) =
        states.count PatternState.isLeaf
      have atMost :
          starting.countP (fun other => (states.get? other).any PatternState.isLeaf) ≤
            states.count PatternState.isLeaf :=
        Pool.countP_le_count fresh.nodup states _
      rw [leaves_unlist indexed kept live]
      by_cases isLeaf : state.isLeaf = true
      · by_cases member : ticket ∈ starting
        · simp only [isLeaf, member, and_self, not_true_eq_false, false_and, ↓reduceIte] at *
          omega
        · simp only [isLeaf, member, false_and, not_false_eq_true, and_self, ↓reduceIte] at *
          omega
      · simp only [isLeaf, and_false, Bool.false_eq_true, ↓reduceIte] at *
        omega

/-- What a live state lists was created after it. -/
theorem Linked.created_lt
    (linked : engine.Linked law moment gap orphans)
    (live : engine.states.get? ticket = some state)
    {child : Ticket}
    (member : child ∈ state.progress.children)
    {held : PatternState}
    (present : engine.Present gap child held) :
    state.created < held.created := by
  obtain ⟨outside, known, knownPresent, hasParent⟩ := linked.listed live member
  obtain ⟨owner, _, ownerLive, _, _, order⟩ := linked.adopted knownPresent outside hasParent
  cases live.symm.trans ownerLive
  cases linked.present_unique knownPresent present
  exact order

/-- Taking an orphan out leaves the operands of its state as orphans. -/
theorem Linked.drop
    (linked : engine.Linked law moment gap (ticket :: orphans))
    (took : engine.states.take ticket = some (state, states))
    (notAbove :
      ∀ {gone : Ticket} {child : PatternState},
        gap = some (gone, child) → child.parent ≠ some ticket) :
    (engine.drop state states).Linked law moment gap (state.progress.children ++ orphans) := by
  have live := Pool.get?_of_take took
  have presentBefore : ∀ {other : Ticket} {held : PatternState},
      (engine.drop state states).Present gap other held →
        engine.Present gap other held ∧ (other ∉ orphans → other ∉ ticket :: orphans) := by
    intro other held present
    rcases present with now | isGap
    · obtain ⟨different, before⟩ := (get?_drop_iff took).mp now
      refine ⟨.inl before, fun outside => ?_⟩
      rw [List.mem_cons, not_or]
      exact ⟨different, outside⟩
    · exact ⟨.inr isGap, fun _ => (linked.gapSpent isGap).2⟩
  -- What is not above the dropped state and not below it is present as before.
  have presentAfter : ∀ {other : Ticket} {held : PatternState},
      engine.Present gap other held → other ∉ ticket :: orphans → held.parent ≠ some ticket →
        (engine.drop state states).Present gap other held ∧
          other ∉ state.progress.children ++ orphans := by
    intro other held present outside notBelow
    rw [List.mem_cons, not_or] at outside
    refine ⟨?_, ?_⟩
    · rcases present with before | isGap
      · exact .inl ((get?_drop_iff took).mpr ⟨outside.1, before⟩)
      · exact .inr isGap
    · rw [List.mem_append, not_or]
      refine ⟨fun member => notBelow ?_, outside.2⟩
      obtain ⟨_, child, presentChild, hasParent⟩ := linked.listed live member
      rw [linked.present_unique present presentChild]
      exact hasParent
  constructor
  case top =>
      intro other held present outside isTop
      rw [List.mem_append, not_or] at outside
      obtain ⟨before, outsideBefore⟩ := presentBefore present
      rw [root_drop]
      exact linked.top before (outsideBefore outside.2) isTop
  case adopted =>
      intro other parent held present outside hasParent
      rw [List.mem_append, not_or] at outside
      obtain ⟨before, outsideBefore⟩ := presentBefore present
      obtain ⟨owner, node, ownerLive, atNode, adopted, order⟩ :=
        linked.adopted before (outsideBefore outside.2) hasParent
      refine ⟨owner, node, (get?_drop_iff took).mpr ⟨?_, ownerLive⟩, atNode, adopted, order⟩
      intro same
      rw [same, live] at ownerLive
      cases ownerLive
      exact outside.1 adopted.mem_children
  case listed =>
      intro parent other owner ownerLive member
      obtain ⟨different, ownerBefore⟩ := (get?_drop_iff took).mp ownerLive
      obtain ⟨outside, held, present, hasParent⟩ := linked.listed ownerBefore member
      obtain ⟨after, outsideAfter⟩ := presentAfter present outside (by
        rw [hasParent]
        simpa using different)
      exact ⟨outsideAfter, held, after, hasParent⟩
  case rooted =>
      intro other isTop
      rw [root_drop] at isTop
      obtain ⟨outside, held, present, noParent⟩ := linked.rooted isTop
      obtain ⟨after, outsideAfter⟩ := presentAfter present outside (by
        rw [noParent]
        simp)
      exact ⟨outsideAfter, held, after, noParent⟩
  case gapSpent =>
      intro gone child isGap
      obtain ⟨spent, outside⟩ := linked.gapSpent isGap
      obtain ⟨_, outsideAfter⟩ := presentAfter (.inr isGap) outside (notAbove isGap)
      exact ⟨spent.take took, outsideAfter⟩

/-- A spent ticket need not be an orphan any longer. -/
theorem Linked.skip
    (linked : engine.Linked law moment gap (ticket :: orphans))
    (dead : engine.states.get? ticket = none) :
    engine.Linked law moment gap orphans := by
  have outsideBefore : ∀ {other : Ticket} {held : PatternState},
      engine.Present gap other held → other ∉ orphans → other ∉ ticket :: orphans := by
    intro other held present outside
    rw [List.mem_cons, not_or]
    refine ⟨?_, outside⟩
    intro same
    rcases present with live | isGap
    · rw [same, dead] at live
      cases live
    · exact (linked.gapSpent isGap).2 (by simp [same])
  constructor
  case top =>
      exact fun present outside => linked.top present (outsideBefore present outside)
  case adopted =>
      exact fun present outside => linked.adopted present (outsideBefore present outside)
  case listed =>
      intro parent other owner live member
      obtain ⟨outside, rest⟩ := linked.listed live member
      exact ⟨fun inOrphans => outside (List.mem_cons_of_mem _ inOrphans), rest⟩
  case rooted =>
      intro other isRoot
      obtain ⟨outside, rest⟩ := linked.rooted isRoot
      exact ⟨fun inOrphans => outside (List.mem_cons_of_mem _ inOrphans), rest⟩
  case gapSpent =>
      intro gone child isGap
      obtain ⟨spent, outside⟩ := linked.gapSpent isGap
      exact ⟨spent, fun inOrphans => outside (List.mem_cons_of_mem _ inOrphans)⟩

/-- Taking an orphan out keeps an engine coherent. -/
theorem Coherent.drop
    (coherent : engine.Coherent law moment horizon starting gap (ticket :: orphans))
    (took : engine.states.take ticket = some (state, states))
    (notAbove :
      ∀ {gone : Ticket} {child : PatternState},
        gap = some (gone, child) → child.parent ≠ some ticket) :
    (engine.drop state states).Coherent law moment horizon starting gap
      (state.progress.children ++ orphans) where
  kept := coherent.kept.drop took
  linked := coherent.linked.drop took notAbove
  fresh := coherent.fresh.drop took
  indexed := coherent.indexed.drop coherent.fresh coherent.kept took

/-- A state that is taken out by itself is in the gap, and its operands are orphans. -/
theorem Linked.detach
    (linked : engine.Linked law moment gap [])
    (took : engine.states.take ticket = some (state, states))
    (ofOperand :
      ∀ {sender : Ticket} {child : PatternState},
        gap = some (sender, child) → child.parent = some ticket) :
    (engine.drop state states).Linked law moment (some (ticket, state))
      state.progress.children := by
  have live := Pool.get?_of_take took
  have presentIff : ∀ {other : Ticket} {held : PatternState},
      (engine.drop state states).Present (some (ticket, state)) other held ↔
        engine.states.get? other = some held := by
    intro other held
    constructor
    · rintro (now | isGap)
      · exact ((get?_drop_iff took).mp now).2
      · cases isGap
        exact live
    · intro before
      by_cases same : other = ticket
      · rw [same, live] at before
        cases before
        exact .inr (by rw [same])
      · exact .inl ((get?_drop_iff took).mpr ⟨same, before⟩)
  have notBelow : ∀ {other : Ticket} {held : PatternState},
      engine.Present gap other held → held.parent ≠ some ticket →
        engine.states.get? other = some held ∧ other ∉ state.progress.children := by
    intro other held present different
    refine ⟨present.resolve_right fun isGap => different (ofOperand isGap), fun member => ?_⟩
    obtain ⟨_, child, presentChild, hasParent⟩ := linked.listed live member
    rw [linked.present_unique present presentChild] at different
    exact different hasParent
  constructor
  case top =>
      intro other held present _ isTop
      rw [root_drop]
      exact linked.top (.inl (presentIff.mp present)) (by simp) isTop
  case adopted =>
      intro other parent held present outside hasParent
      obtain ⟨owner, node, ownerLive, atNode, adopted, order⟩ :=
        linked.adopted (.inl (presentIff.mp present)) (by simp) hasParent
      refine ⟨owner, node, (get?_drop_iff took).mpr ⟨?_, ownerLive⟩, atNode, adopted, order⟩
      intro same
      rw [same, live] at ownerLive
      cases ownerLive
      exact outside adopted.mem_children
  case listed =>
      intro parent other owner ownerLive member
      obtain ⟨different, ownerBefore⟩ := (get?_drop_iff took).mp ownerLive
      obtain ⟨_, held, present, hasParent⟩ := linked.listed ownerBefore member
      obtain ⟨before, outside⟩ := notBelow present (by
        rw [hasParent]
        simpa using different)
      exact ⟨outside, held, presentIff.mpr before, hasParent⟩
  case rooted =>
      intro other isTop
      rw [root_drop] at isTop
      obtain ⟨_, held, present, noParent⟩ := linked.rooted isTop
      obtain ⟨before, outside⟩ := notBelow present (by
        rw [noParent]
        simp)
      exact ⟨outside, held, presentIff.mpr before, noParent⟩
  case gapSpent =>
      intro gone child isGap
      cases isGap
      exact ⟨Pool.spent_of_take took, fun member =>
        Nat.lt_irrefl _ (linked.created_lt live member (.inl live))⟩

/-- A state that is taken out by itself leaves an engine coherent up to the gap and the orphans. -/
theorem Coherent.detach
    (coherent : engine.Coherent law moment horizon starting gap [])
    (took : engine.states.take ticket = some (state, states))
    (ofOperand :
      ∀ {sender : Ticket} {child : PatternState},
        gap = some (sender, child) → child.parent = some ticket) :
    (engine.drop state states).Coherent law moment horizon starting (some (ticket, state))
      state.progress.children where
  kept := coherent.kept.drop took
  linked := coherent.linked.detach took ofOperand
  fresh := coherent.fresh.drop took
  indexed := coherent.indexed.drop coherent.fresh coherent.kept took

end Drop

section Release

variable {compiled : CompiledPattern} {law : RowLaw compiled} {moment horizon : Nat}
  {engine : Engine} {starting : List Ticket}

/--
Releasing all orphans leaves none.  Orphans were created after the state in the gap, so that none of
them is its parent.
-/
theorem Coherent.releaseAll
    {orphans : List Ticket}
    {top : Ticket}
    {gone : PatternState}
    (coherent : engine.Coherent law moment horizon starting (some (top, gone)) orphans)
    (later :
      ∀ ticket ∈ orphans, ∀ {state : PatternState},
        engine.states.get? ticket = some state → gone.created < state.created) :
    (engine.release orphans).Coherent law moment horizon starting (some (top, gone)) [] ∧
      Evolves engine (engine.release orphans) := by
  fun_induction Engine.release engine orphans with
  | case1 engine =>
      exact ⟨coherent, .refl engine⟩
  | case2 engine ticket rest taken inductionHypothesis =>
      have dead := Pool.take_eq_none_iff.mp taken
      refine inductionHypothesis ?_ ?_
      · exact { coherent with linked := coherent.linked.skip dead }
      · exact fun other member => later other (List.mem_cons_of_mem _ member)
  | case3 engine ticket rest state states taken fewer inductionHypothesis =>
      have live := Pool.get?_of_take taken
      have notAbove : ∀ {gap : Ticket} {child : PatternState},
          some (top, gone) = some (gap, child) → child.parent ≠ some ticket := by
        intro gap child isGap hasParent
        cases isGap
        obtain ⟨owner, _, ownerLive, _, _, order⟩ :=
          coherent.linked.adopted (.inr rfl) (coherent.linked.gapSpent rfl).2 hasParent
        have reverse := later ticket (by simp) ownerLive
        omega
      obtain ⟨released, evolves⟩ :=
        inductionHypothesis (coherent.drop taken notAbove) (by
          intro other member held heldLive
          have before := ((get?_drop_iff taken).mp heldLive).2
          rcases List.mem_append.mp member with isChild | inRest
          · exact Nat.lt_trans (later ticket (by simp) live)
              (coherent.linked.created_lt live isChild (.inl before))
          · exact later other (List.mem_cons_of_mem _ inRest) before)
      exact ⟨released, (evolves_drop taken).trans evolves⟩

theorem Coherent.release
    {gap : Option (Ticket × PatternState)}
    {ticket : Ticket}
    {state : PatternState}
    (coherent : engine.Coherent law moment horizon starting gap [])
    (live : engine.states.get? ticket = some state)
    (ofOperand :
      ∀ {sender : Ticket} {child : PatternState},
        gap = some (sender, child) → child.parent = some ticket) :
    (engine.release [ticket]).Coherent law moment horizon starting (some (ticket, state)) [] ∧
      Evolves engine (engine.release [ticket]) := by
  rw [Engine.release]
  split
  next taken =>
      rw [Pool.take_eq_none_iff.mp taken] at live
      cases live
  next held states taken =>
      cases (Pool.get?_of_take taken).symm.trans live
      have detached := coherent.detach taken ofOperand
      rw [List.append_nil]
      obtain ⟨released, evolves⟩ := detached.releaseAll fun other member child childLive =>
        coherent.linked.created_lt live member (.inl ((get?_drop_iff taken).mp childLive).2)
      exact ⟨released, (evolves_drop taken).trans evolves⟩

end Release

end Engine

end EventQuery
