import EventQuery.Proofs.Pattern.Change

namespace EventQuery

namespace Engine

/-!
# Waiting states

A state that starts to run enters the index of what it waits for, and a state that is gone leaves
it.  Both indexes work alike: a state stands under its rank, and no other state has that rank,
because ranks end in the number under which a state was created.
-/

/-- The rank of a waiting filter ends in the number of its state. -/
theorem created_of_filterRank?
    {state : PatternState}
    {rank : Rank}
    (isRank : state.filterRank? = some rank) :
    rank.created = state.created := by
  unfold PatternState.filterRank? at isRank
  split at isRank
  · cases isRank
    rfl
  · cases isRank

/-- The rank of a deadline ends in the number of its state. -/
theorem created_of_deadlineRank?
    {state : PatternState}
    {rank : Rank}
    (isRank : state.deadlineRank? = some rank) :
    rank.created = state.created := by
  unfold PatternState.deadlineRank? at isRank
  split at isRank
  · cases isRank
    rfl
  · cases isRank
    rfl
  · cases isRank

section Waits

variable {states rest : Pool PatternState} {starting : List Ticket} {ticket : Ticket}
  {state : PatternState} {rank? : PatternState → Option Rank} {index : StateIndex} {rank : Rank}

theorem Waits.skip
    (waits : Waits states (ticket :: starting) rank? index)
    (unranked : ∀ {state : PatternState}, states.get? ticket = some state → rank? state = none) :
    Waits states starting rank? index := by
  intro rank other
  refine (waits _ _).trans ⟨?_, ?_⟩
  · rintro ⟨outside, waiting⟩
    exact ⟨fun member => outside (List.mem_cons_of_mem _ member), waiting⟩
  · rintro ⟨outside, waiting, live, isRank⟩
    refine ⟨?_, waiting, live, isRank⟩
    intro member
    rcases List.mem_cons.mp member with same | inStarting
    · rw [same] at live
      rw [unranked live] at isRank
      cases isRank
    · exact outside inStarting

theorem Waits.enter
    (waits : Waits states (ticket :: starting) rank? index)
    (sorted : index.Sorted)
    (live : states.get? ticket = some state)
    (isRank : rank? state = some rank)
    (outside : ticket ∉ starting)
    (alone :
      ∀ {other : Ticket} {waiting : PatternState},
        states.get? other = some waiting → rank? waiting = some rank → other = ticket) :
    Waits states starting rank? (index.insert rank ticket) := by
  intro place other
  rw [StateIndex.mem_insert sorted]
  constructor
  · rintro (isNew | ⟨old, _⟩)
    · cases isNew
      exact ⟨outside, state, live, isRank⟩
    · obtain ⟨outsideBoth, waiting⟩ := (waits _ _).mp old
      exact ⟨fun member => outsideBoth (List.mem_cons_of_mem _ member), waiting⟩
  · rintro ⟨notStarting, waiting, found, itsRank⟩
    by_cases same : other = ticket
    · rw [same, live] at found
      cases found
      rw [isRank] at itsRank
      cases itsRank
      exact .inl (by rw [same])
    · refine .inr ⟨(waits _ _).mpr ⟨?_, waiting, found, itsRank⟩, ?_⟩
      · rw [List.mem_cons, not_or]
        exact ⟨same, notStarting⟩
      · intro sameRank
        exact same (alone found (sameRank ▸ itsRank))

theorem Waits.take
    (waits : Waits states starting rank? index)
    (took : states.take ticket = some (state, rest))
    (unranked : rank? state = none) :
    Waits rest starting rank? index := by
  intro place other
  refine (waits _ _).trans (and_congr_right fun _ => ?_)
  rw [Pool.get?_take took]
  by_cases same : other = ticket
  · rw [if_pos same, same, Pool.get?_of_take took]
    simp [unranked]
  · rw [if_neg same]

/-- A state that is gone leaves the index with its rank. -/
theorem Waits.leave
    (waits : Waits states starting rank? index)
    (took : states.take ticket = some (state, rest))
    (isRank : rank? state = some rank)
    (alone :
      ∀ {other : Ticket} {waiting : PatternState},
        states.get? other = some waiting → rank? waiting = some rank → other = ticket) :
    Waits rest starting rank? (index.erase rank) := by
  intro place other
  rw [StateIndex.mem_erase, Pool.get?_take took]
  constructor
  · rintro ⟨old, different⟩
    obtain ⟨outside, waiting, found, itsRank⟩ := (waits _ _).mp old
    have isOther : other ≠ ticket := by
      intro same
      rw [same, Pool.get?_of_take took] at found
      cases found
      rw [isRank] at itsRank
      cases itsRank
      exact different rfl
    exact ⟨outside, waiting, by rw [if_neg isOther]; exact found, itsRank⟩
  · rintro ⟨outside, waiting, found, itsRank⟩
    by_cases same : other = ticket
    · rw [if_pos same] at found
      cases found
    · rw [if_neg same] at found
      refine ⟨(waits _ _).mpr ⟨outside, waiting, found, itsRank⟩, ?_⟩
      intro sameRank
      exact same (alone found (sameRank ▸ itsRank))

theorem Waits.contains_iff
    (waits : Waits states starting rank? index)
    (live : states.get? ticket = some state)
    (isRank : rank? state = some rank)
    (alone :
      ∀ {other : Ticket} {waiting : PatternState},
        states.get? other = some waiting → rank? waiting = some rank → other = ticket) :
    index.contains rank = true ↔ ticket ∉ starting := by
  rw [StateIndex.contains_iff]
  constructor
  · rintro ⟨other, member⟩
    obtain ⟨outside, waiting, found, itsRank⟩ := (waits _ _).mp member
    exact alone found itsRank ▸ outside
  · intro outside
    exact ⟨ticket, (waits _ _).mpr ⟨outside, state, live, isRank⟩⟩

end Waits

section Begin

variable {compiled : CompiledPattern} {law : RowLaw compiled} {moment horizon : Nat}
  {engine : Engine} {starting : List Ticket} {gap : Option (Ticket × PatternState)}
  {orphans : List Ticket} {ticket : Ticket} {state : PatternState}

/-- No two states have the same rank in an index. -/
theorem Kept.alone
    (kept : engine.Kept law moment horizon)
    {rank? : PatternState → Option Rank}
    (numbers :
      ∀ {state : PatternState} {rank : Rank},
        rank? state = some rank → rank.created = state.created)
    (live : engine.states.get? ticket = some state)
    {rank : Rank}
    (isRank : rank? state = some rank)
    {other : Ticket}
    {waiting : PatternState}
    (found : engine.states.get? other = some waiting)
    (itsRank : rank? waiting = some rank) :
    other = ticket :=
  kept.numberedOnce found live ((numbers itsRank).symm.trans (numbers isRank))

theorem Starting.tail
    (fresh : engine.Starting (ticket :: starting)) :
    engine.Starting starting where
  nodup := (List.nodup_cons.mp fresh.nodup).2
  issued := fun other member => fresh.issued other (List.mem_cons_of_mem _ member)
  childless := fun other member => fresh.childless other (List.mem_cons_of_mem _ member)

/-- A state that waits for nothing, or is gone, starts to run without further ado. -/
theorem Coherent.begin
    (coherent : engine.Coherent law moment horizon (ticket :: starting) gap orphans)
    (idle :
      ∀ {state : PatternState},
        engine.states.get? ticket = some state → state.progress.wait = .nothing) :
    engine.Coherent law moment horizon starting gap orphans where
  kept := coherent.kept
  linked := coherent.linked
  fresh := coherent.fresh.tail
  indexed := by
    constructor
    case filters =>
        refine coherent.indexed.filters.skip fun live => ?_
        simp [PatternState.filterRank?, idle live]
    case deadlines =>
        refine coherent.indexed.deadlines.skip fun live => ?_
        simp [PatternState.deadlineRank?, idle live]
    case filtersSorted =>
        exact coherent.indexed.filtersSorted
    case deadlinesSorted =>
        exact coherent.indexed.deadlinesSorted
    case leaves =>
        have notLeaf : (engine.states.get? ticket).any PatternState.isLeaf = false := by
          cases live : engine.states.get? ticket with
          | none => rfl
          | some state => simp [PatternState.isLeaf, idle live]
        rw [← coherent.indexed.leaves, List.countP_cons, notLeaf]
        rfl

/-- A filter starts to run: it waits for an event and counts as a partial match. -/
theorem Coherent.await
    (coherent : engine.Coherent law moment horizon (ticket :: starting) gap orphans)
    (live : engine.states.get? ticket = some state)
    (waits : state.progress.wait = .event) :
    (engine.await ticket state).Coherent law moment horizon starting gap orphans where
  kept := { coherent.kept with }
  linked := { coherent.linked with }
  fresh := { coherent.fresh.tail with }
  indexed := by
    have isRank : state.filterRank? = some ⟨state.node, state.created⟩ := by
      simp [PatternState.filterRank?, waits]
    constructor
    case filters =>
        exact coherent.indexed.filters.enter coherent.indexed.filtersSorted live isRank
          (List.nodup_cons.mp coherent.fresh.nodup).1
          (coherent.kept.alone created_of_filterRank? live isRank)
    case deadlines =>
        refine coherent.indexed.deadlines.skip fun {other} found => ?_
        cases live.symm.trans found
        simp [PatternState.deadlineRank?, waits]
    case filtersSorted =>
        exact coherent.indexed.filtersSorted.insert _ _
    case deadlinesSorted =>
        exact coherent.indexed.deadlinesSorted
    case leaves =>
        have isLeaf : (engine.states.get? ticket).any PatternState.isLeaf = true := by
          simp [live, PatternState.isLeaf, waits]
        have counted := coherent.indexed.leaves
        rw [List.countP_cons, isLeaf, if_pos rfl] at counted
        simp only [Engine.await]
        omega

/-- A state with a deadline starts to run, and counts as a partial match when it is one. -/
private theorem Coherent.schedule
    (coherent : engine.Coherent law moment horizon (ticket :: starting) gap orphans)
    (live : engine.states.get? ticket = some state)
    {deadline : Int}
    (isRank : state.deadlineRank? = some ⟨deadline, state.created⟩)
    (noEvent : state.filterRank? = none)
    {leaves : Nat}
    (counted : leaves = engine.leaves + if state.isLeaf then 1 else 0) :
    Coherent law moment horizon { engine.schedule ticket state deadline with leaves }
      starting gap orphans where
  kept := { coherent.kept with }
  linked := { coherent.linked with }
  fresh := { coherent.fresh.tail with }
  indexed := by
    constructor
    case filters =>
        refine coherent.indexed.filters.skip fun {other} found => ?_
        cases live.symm.trans found
        exact noEvent
    case deadlines =>
        exact coherent.indexed.deadlines.enter coherent.indexed.deadlinesSorted live isRank
          (List.nodup_cons.mp coherent.fresh.nodup).1
          (coherent.kept.alone created_of_deadlineRank? live isRank)
    case filtersSorted =>
        exact coherent.indexed.filtersSorted
    case deadlinesSorted =>
        exact coherent.indexed.deadlinesSorted.insert _ _
    case leaves =>
        have before := coherent.indexed.leaves
        rw [List.countP_cons, live, Option.any_some] at before
        simp only [Engine.schedule]
        omega

/-- A timer starts to run: it waits for its deadline and counts as a partial match. -/
theorem Coherent.scheduleTimer
    (coherent : engine.Coherent law moment horizon (ticket :: starting) gap orphans)
    (live : engine.states.get? ticket = some state)
    {deadline : Int}
    (waits : state.progress.wait = .time deadline) :
    Coherent law moment horizon
      { engine.schedule ticket state deadline with leaves := engine.leaves + 1 }
      starting gap orphans :=
  coherent.schedule live (by simp [PatternState.deadlineRank?, waits])
    (by simp [PatternState.filterRank?, waits]) (by simp [PatternState.isLeaf, waits])

/-- A time bound starts to run: it waits for its deadline. -/
theorem Coherent.scheduleBound
    (coherent : engine.Coherent law moment horizon (ticket :: starting) gap orphans)
    (live : engine.states.get? ticket = some state)
    {deadline : Int}
    (waits : state.progress.wait = .bound deadline) :
    (engine.schedule ticket state deadline).Coherent law moment horizon starting gap orphans :=
  coherent.schedule live (by simp [PatternState.deadlineRank?, waits])
    (by simp [PatternState.filterRank?, waits]) (by simp [PatternState.isLeaf, waits])

end Begin

end Engine

end EventQuery
