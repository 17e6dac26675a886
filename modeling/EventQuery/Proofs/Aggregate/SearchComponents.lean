import EventQuery.Proofs.Aggregate.SearchSteps

namespace EventQuery

namespace CycleSearch

/-!
# Components that a search closes

A vertex at the end of the path that leads back to no earlier one is the root of a component: what
was opened since and is not closed leads to the root and is reached from it, and all other edges out
of it lead to closed vertices.  So its vertices lie on cycles when there are several of them or the
root has an edge to itself.
-/

section Closing

variable {table : SuccessorTable} {search : CycleSearch} {vertex other : Nat}
  {path : List SearchFrame}

/-- Whether a vertex was opened no earlier than another and is not closed. -/
structure Since (search : CycleSearch) (vertex other : Nat) : Prop where
  member : other ∈ search.stack
  after : search.rank vertex ≤ search.rank other

namespace Sound

/-- A vertex that the path ends with has been looked at, and so have those opened since. -/
theorem looked_of_since
    (sound : search.Sound table none)
    (isPath : search.path = ⟨vertex, []⟩ :: path)
    (since : search.Since vertex other)
    (successor : Nat) :
    search.Looked other successor := by
  intro frame isFrame isOther still
  rw [isPath] at isFrame
  rcases List.mem_cons.mp isFrame with rfl | later
  · cases still
  · have before := sound.rank_lt_head isPath (List.mem_map_of_mem later)
    rw [isOther] at before
    exact Nat.not_lt_of_le since.after before

/-- The edges out of a component lead to closed vertices. -/
theorem since_or_closed_of_leads
    (sound : search.Sound table none)
    (isPath : search.path = ⟨vertex, []⟩ :: path)
    (isRoot : search.low vertex = search.rank vertex)
    (since : search.Since vertex other)
    {successor : Nat}
    (leads : table.Leads other successor) :
    search.Since vertex successor ∨ search.Opened successor ∧ successor ∉ search.stack := by
  have isLooked := sound.looked_of_since isPath since successor
  have opened := sound.looked other (sound.opened other since.member) successor leads isLooked nofun
  by_cases member : successor ∈ search.stack
  · have least := sound.lowLeast other since.member successor member leads isLooked nofun vertex
      (sound.guards_head isPath since.after)
    exact .inl ⟨member, isRoot ▸ least⟩
  · exact .inr ⟨opened, member⟩

/-- What is reached from a component and is not closed belongs to it. -/
theorem since_of_reaches
    (sound : search.Sound table none)
    (isPath : search.path = ⟨vertex, []⟩ :: path)
    (isRoot : search.low vertex = search.rank vertex)
    (since : search.Since vertex other)
    {reached : Nat}
    (reaches : table.Reaches other reached)
    (member : reached ∈ search.stack) :
    search.Since vertex reached := by
  suffices search.Since vertex reached ∨ search.Opened reached ∧ reached ∉ search.stack from
    this.resolve_right fun isClosed => isClosed.2 member
  clear member
  induction reaches with
  | refl => exact .inl since
  | tail _ leads inductionHypothesis =>
      rcases inductionHypothesis with inside | ⟨opened, isClosed⟩
      · exact sound.since_or_closed_of_leads isPath isRoot inside leads
      · exact .inr (sound.closed _ opened isClosed _ leads)

/-- Every vertex of a component leads to its root. -/
theorem reaches_root
    (sound : search.Sound table none)
    (isPath : search.path = ⟨vertex, []⟩ :: path)
    (isRoot : search.low vertex = search.rank vertex)
    (since : search.Since vertex other) :
    table.Reaches other vertex := by
  obtain ⟨guard, isGuard, _, reaches⟩ := sound.up other since.member
  have inside := sound.since_of_reaches isPath isRoot since reaches (sound.onStack.mem isGuard)
  rw [trail, isPath, List.map_cons] at isGuard
  rcases List.mem_cons.mp isGuard with rfl | later
  · exact reaches
  · exact absurd (sound.rank_lt_head isPath later) (Nat.not_lt_of_le inside.after)

/-- The root of a component leads to every vertex of it. -/
theorem root_reaches
    (sound : search.Sound table none)
    (isPath : search.path = ⟨vertex, []⟩ :: path)
    (since : search.Since vertex other) :
    table.Reaches vertex other :=
  sound.down vertex (sound.guards_head isPath (Nat.le_refl _)).onTrail other since.member
    since.after

/-- A vertex of a component lies on a cycle when there is another one or an edge to the root. -/
theorem onCycle_iff
    (sound : search.Sound table none)
    (isPath : search.path = ⟨vertex, []⟩ :: path)
    (isRoot : search.low vertex = search.rank vertex)
    (since : search.Since vertex other) :
    table.OnCycle other ↔
      (∃ third, search.Since vertex third ∧ third ≠ vertex) ∨ table.Leads vertex vertex := by
  have self : search.Since vertex vertex := ⟨sound.head_mem isPath, Nat.le_refl _⟩
  have toRoot : ∀ {third}, search.Since vertex third → table.Reaches third vertex :=
    sound.reaches_root isPath isRoot
  have fromRoot : ∀ {third}, search.Since vertex third → table.Reaches vertex third :=
    sound.root_reaches isPath
  constructor
  · intro onCycle
    by_cases isVertex : other = vertex
    · subst isVertex
      obtain ⟨successor, leads, reaches⟩ := Relation.TransGen.head'_iff.mp onCycle
      rcases sound.since_or_closed_of_leads isPath isRoot self leads with
        inside | ⟨opened, isClosed⟩
      · by_cases isLoop : successor = other
        · exact .inr (isLoop ▸ leads)
        · exact .inl ⟨successor, inside, isLoop⟩
      · exact absurd self.member (sound.closed_of_reaches opened isClosed reaches)
    · exact .inl ⟨other, since, isVertex⟩
  · -- a way from the root back to it passes at least one edge
    intro further
    have around : Relation.TransGen table.Leads vertex vertex := by
      rcases further with ⟨third, inside, different⟩ | loop
      · exact ((Relation.reflTransGen_iff_eq_or_transGen.mp (fromRoot inside)).resolve_left
          different).trans_left (toRoot inside)
      · exact .single loop
    exact (Relation.TransGen.trans_right (toRoot since) around).trans_left (fromRoot since)

end Sound

/-- A list is split behind the first place of a vertex. -/
theorem splitThrough_append
    {upper lower : List Nat}
    (notAbove : vertex ∉ upper) :
    splitThrough vertex (upper ++ vertex :: lower) = (upper ++ [vertex], lower) := by
  induction upper with
  | nil => exact if_pos rfl
  | cons first rest inductionHypothesis =>
      obtain ⟨different, notInRest⟩ := not_or.mp (mt List.mem_cons.mpr notAbove)
      rw [List.cons_append, splitThrough, if_neg (Ne.symm different),
        inductionHypothesis notInRest]
      rfl

/-- The stack is parted by a vertex into what was opened since, and what was opened before. -/
structure Parted (search : CycleSearch) (vertex : Nat) (upper lower : List Nat) : Prop where
  whole : search.stack = upper ++ vertex :: lower
  since : ∀ other ∈ upper, search.rank vertex < search.rank other
  before : ∀ other ∈ lower, search.rank other < search.rank vertex

theorem Sound.exists_parted
    (sound : search.Sound table none)
    (member : vertex ∈ search.stack) :
    ∃ upper lower, search.Parted vertex upper lower := by
  obtain ⟨upper, lower, whole⟩ := List.append_of_mem member
  have sorted := sound.sorted
  rw [whole, List.pairwise_append, List.pairwise_cons] at sorted
  exact ⟨upper, lower, whole, fun other isAbove => sorted.2.2 other isAbove vertex
    List.mem_cons_self, sorted.2.1.1⟩

namespace Parted

variable {upper lower : List Nat}

theorem not_mem_upper
    (parted : search.Parted vertex upper lower) :
    vertex ∉ upper :=
  fun isAbove => Nat.lt_irrefl _ (parted.since vertex isAbove)

theorem mem_component_iff
    (parted : search.Parted vertex upper lower) :
    other ∈ upper ++ [vertex] ↔ search.Since vertex other := by
  constructor
  · intro member
    rcases List.mem_append.mp member with isAbove | isVertex
    · exact ⟨parted.whole ▸ List.mem_append_left _ isAbove,
        Nat.le_of_lt (parted.since other isAbove)⟩
    · rw [List.mem_singleton.mp isVertex]
      exact ⟨parted.whole ▸ List.mem_append_right _ List.mem_cons_self, Nat.le_refl _⟩
  · intro since
    have member := parted.whole ▸ since.member
    rw [List.append_cons, List.mem_append] at member
    exact member.resolve_right fun isBelow =>
      Nat.not_lt_of_le since.after (parted.before other isBelow)

theorem mem_lower_iff
    (parted : search.Parted vertex upper lower) :
    other ∈ lower ↔ other ∈ search.stack ∧ ¬ search.Since vertex other := by
  rw [← parted.mem_component_iff, parted.whole, List.append_cons, List.mem_append]
  constructor
  · refine fun isBelow => ⟨.inr isBelow, fun isComponent => ?_⟩
    exact Nat.not_lt_of_le (parted.mem_component_iff.mp isComponent).after
      (parted.before other isBelow)
  · exact fun member => member.1.resolve_left member.2

/-- There is another vertex in a component than its root when the component is longer than one. -/
theorem one_lt_length_iff
    (parted : search.Parted vertex upper lower) :
    1 < (upper ++ [vertex]).length ↔ ∃ third, search.Since vertex third ∧ third ≠ vertex := by
  rw [List.length_append, List.length_singleton, Nat.lt_add_left_iff_pos, List.length_pos_iff]
  constructor
  · intro notEmpty
    obtain ⟨third, isAbove⟩ := List.exists_mem_of_ne_nil upper notEmpty
    refine ⟨third, parted.mem_component_iff.mp (List.mem_append_left _ isAbove), ?_⟩
    rintro rfl
    exact parted.not_mem_upper isAbove
  · rintro ⟨third, since, different⟩ isEmpty
    have member := parted.mem_component_iff.mpr since
    rw [isEmpty, List.nil_append] at member
    exact different (List.mem_singleton.mp member)

/-- A path that ends with the vertex goes on below it. -/
theorem sublist_lower
    (parted : search.Parted vertex upper lower)
    {trail : List Nat}
    (earlier : ∀ other ∈ trail, search.rank other < search.rank vertex)
    (onStack : trail.Sublist search.stack) :
    trail.Sublist lower := by
  have filtered := onStack.filter fun other => decide (search.rank other < search.rank vertex)
  have none : upper.filter (fun other => decide (search.rank other < search.rank vertex)) = [] :=
    List.filter_eq_nil_iff.mpr fun other isAbove => by
      simpa using Nat.le_of_lt (parted.since other isAbove)
  rw [parted.whole, List.filter_append, none, List.filter_cons_of_neg (by simp),
    List.filter_eq_self.mpr fun other member => decide_eq_true (earlier other member),
    List.filter_eq_self.mpr fun other member => decide_eq_true (parted.before other member)]
    at filtered
  exact filtered

end Parted

section Closed

variable {upper lower : List Nat}

/-- What is left of a search when the component of a vertex that the path ended with is closed. -/
theorem closeComponent_eq
    (parted : search.Parted vertex upper lower) :
    closeComponent table { search with path } vertex =
      { search with
        path
        stack := lower
        pending := (upper ++ [vertex]).foldl
          (fun pending member => pending.setIfInBounds member false) search.pending
        onCycle :=
          if 1 < (upper ++ [vertex]).length || (table.successors vertex).contains vertex then
            (upper ++ [vertex]).foldl
              (fun onCycle member => onCycle.setIfInBounds member true) search.onCycle
          else search.onCycle } := by
  rw [closeComponent]
  dsimp only
  rw [parted.whole, splitThrough_append parted.not_mem_upper]

namespace Sound

/-- The vertices of a component are vertices of the graph. -/
theorem component_lt_size
    (sound : search.Sound table none)
    (parted : search.Parted vertex upper lower) :
    ∀ other ∈ upper ++ [vertex], other < table.size :=
  fun other member => sound.lt_size (sound.opened other (parted.mem_component_iff.mp member).member)

theorem tabled_close
    (sound : search.Sound table none)
    (isPath : search.path = ⟨vertex, []⟩ :: path)
    (parted : search.Parted vertex upper lower) :
    (closeComponent table { search with path } vertex).Tabled table := by
  rw [closeComponent_eq parted]
  have inside := sound.pendingSize.symm ▸ sound.component_lt_size parted
  have trailBelow : (path.map SearchFrame.vertex).Sublist lower := by
    refine parted.sublist_lower (fun other => sound.rank_lt_head isPath) ?_
    refine .trans ?_ sound.onStack
    rw [trail, isPath]
    exact List.sublist_cons_self _ _
  refine { sound with
    pendingSize := (size_foldl_setIfInBounds _ _ _).trans sound.pendingSize
    onCycleSize := ?_
    pending := fun other => ?_
    opened := fun other isBelow => sound.opened other (parted.mem_lower_iff.mp isBelow).1
    sorted := ?_
    onStack := trailBelow }
  · dsimp only
    split
    next => exact (size_foldl_setIfInBounds _ _ _).trans sound.onCycleSize
    next => exact sound.onCycleSize
  · rw [getD_foldl_setIfInBounds _ _ _ _ _ inside, parted.mem_lower_iff,
      ← parted.mem_component_iff]
    by_cases member : other ∈ upper ++ [vertex]
    · simp [member]
    · rw [if_neg member, sound.pending]
      simp [member]
  · have sorted := sound.sorted
    rw [parted.whole, List.append_cons, List.pairwise_append] at sorted
    exact sorted.2.1

/-- Whether a vertex of a component lies on a cycle is told by the size and the root. -/
theorem cyclic_iff
    (sound : search.Sound table none)
    (isPath : search.path = ⟨vertex, []⟩ :: path)
    (isRoot : search.low vertex = search.rank vertex)
    (parted : search.Parted vertex upper lower)
    (since : search.Since vertex other) :
    (decide (1 < (upper ++ [vertex]).length) || (table.successors vertex).contains vertex) = true ↔
      table.OnCycle other := by
  rw [sound.onCycle_iff isPath isRoot since, Bool.or_eq_true, decide_eq_true_iff,
    parted.one_lt_length_iff, List.contains_iff_mem]
  rfl

theorem explored_close
    (sound : search.Sound table none)
    (isPath : search.path = ⟨vertex, []⟩ :: path)
    (isRoot : search.low vertex = search.rank vertex)
    (parted : search.Parted vertex upper lower) :
    (closeComponent table { search with path } vertex).Explored table none := by
  rw [closeComponent_eq parted]
  have inside := sound.onCycleSize.symm ▸ sound.component_lt_size parted
  constructor
  case remaining =>
      exact fun frame isFrame => sound.remaining frame (isPath ▸ List.mem_cons_of_mem _ isFrame)
  case looked =>
      exact fun other opened successor leads isLooked notCurrent =>
        sound.looked other opened successor leads (isLooked.of_leave isPath) notCurrent
  case closed =>
      intro other opened notBelow successor leads
      by_cases member : other ∈ search.stack
      · have since : search.Since vertex other := Classical.byContradiction fun notSince =>
          notBelow (parted.mem_lower_iff.mpr ⟨member, notSince⟩)
        rcases sound.since_or_closed_of_leads isPath isRoot since leads with
          inside | ⟨successorOpened, isClosed⟩
        · exact ⟨sound.opened successor inside.member,
            fun isBelow => (parted.mem_lower_iff.mp isBelow).2 inside⟩
        · exact ⟨successorOpened, fun isBelow => isClosed (parted.mem_lower_iff.mp isBelow).1⟩
      · obtain ⟨successorOpened, isClosed⟩ := sound.closed other opened member successor leads
        exact ⟨successorOpened, fun isBelow => isClosed (parted.mem_lower_iff.mp isBelow).1⟩
  case cyclic =>
      intro other
      rw [parted.mem_lower_iff]
      by_cases since : search.Since vertex other
      · -- the vertex has been closed now
        have opened := sound.opened other since.member
        have unmarked : search.onCycle.getD other false = false :=
          Bool.eq_false_iff.mpr fun marked => ((sound.cyclic other).mp marked).2.1 since.member
        rw [← sound.cyclic_iff isPath isRoot parted since]
        split
        next isCyclic =>
            rw [getD_foldl_setIfInBounds _ _ _ _ _ inside,
              if_pos (parted.mem_component_iff.mpr since)]
            exact iff_of_true rfl ⟨opened, fun isBelow => isBelow.2 since, isCyclic⟩
        next notCyclic =>
            rw [unmarked]
            exact iff_of_false Bool.false_ne_true fun closed => notCyclic closed.2.2
      · have unchanged : (if (decide (1 < (upper ++ [vertex]).length) ||
              (table.successors vertex).contains vertex) = true then
            (upper ++ [vertex]).foldl
              (fun onCycle member => onCycle.setIfInBounds member true) search.onCycle
          else search.onCycle).getD other false = search.onCycle.getD other false := by
          split
          next => rw [getD_foldl_setIfInBounds _ _ _ _ _ inside,
            if_neg (mt parted.mem_component_iff.mp since)]
          next => rfl
        rw [unchanged, sound.cyclic, and_iff_left since]
        rfl

theorem linked_close
    (sound : search.Sound table none)
    (isPath : search.path = ⟨vertex, []⟩ :: path)
    (parted : search.Parted vertex upper lower) :
    (closeComponent table { search with path } vertex).Linked table none := by
  rw [closeComponent_eq parted]
  have kept : ∀ {other}, other ∈ lower → other ∈ search.stack := fun isBelow =>
    (parted.mem_lower_iff.mp isBelow).1
  have isTrail : search.trail = vertex :: path.map SearchFrame.vertex := by
    rw [trail, isPath]
    rfl
  constructor
  case down =>
      intro guard isGuard other isBelow
      exact sound.down guard (isTrail ▸ List.mem_cons_of_mem _ isGuard) other (kept isBelow)
  case up =>
      intro other isBelow
      obtain ⟨guard, isGuard, before, reaches⟩ := sound.up other (kept isBelow)
      rw [isTrail] at isGuard
      refine ⟨guard, (List.mem_cons.mp isGuard).resolve_left ?_, before, reaches⟩
      rintro rfl
      exact Nat.not_lt_of_le before (parted.before other isBelow)
  case lowReached =>
      intro other isBelow
      obtain ⟨back, isBack, isLow, before, reaches⟩ := sound.lowReached other (kept isBelow)
      refine ⟨back, parted.mem_lower_iff.mpr ⟨isBack, fun since => ?_⟩, isLow, before, reaches⟩
      exact Nat.not_lt_of_le (Nat.le_trans since.after (isLow ▸ before))
        (parted.before other isBelow)
  case lowLeast =>
      intro other isBelow successor successorBelow leads isLooked notCurrent guard guards
      exact sound.lowLeast other (kept isBelow) successor (kept successorBelow) leads
        (isLooked.of_leave isPath) notCurrent guard
        (Guards.of_leave isPath ⟨guards.onTrail, guards.before, guards.last⟩
          (parted.before other isBelow))

/-- The component of a vertex that leads back to no earlier one is closed. -/
theorem close
    (sound : search.Sound table none)
    (isPath : search.path = ⟨vertex, []⟩ :: path)
    (isRoot : search.low vertex = search.rank vertex) :
    (closeComponent table { search with path } vertex).Sound table none := by
  obtain ⟨upper, lower, parted⟩ := sound.exists_parted (sound.head_mem isPath)
  exact {
    toTabled := sound.tabled_close isPath parted
    toExplored := sound.explored_close isPath isRoot parted
    toLinked := sound.linked_close isPath parted }

end Sound

end Closed

end Closing

end CycleSearch

end EventQuery
