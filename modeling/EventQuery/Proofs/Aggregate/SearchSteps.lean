import EventQuery.Proofs.Aggregate.SearchState

namespace EventQuery

namespace CycleSearch

/-!
# Steps of a search

A search looks at an edge, opens the vertex that the edge leads to, or leaves the end of its path.
Each of these keeps what holds of a search.
-/

section Skipping

variable {table : SuccessorTable} {search : CycleSearch} {vertex successor : Nat}
  {remaining : List Nat} {path : List SearchFrame}

/-- A successor is taken from those that remain, to be looked at. -/
theorem Sound.skip
    (sound : search.Sound table none)
    (isPath : search.path = ⟨vertex, successor :: remaining⟩ :: path) :
    Sound table { search with path := ⟨vertex, remaining⟩ :: path } (some (vertex, successor)) := by
  have sameTrail : trail { search with path := ⟨vertex, remaining⟩ :: path } = search.trail := by
    rw [trail, trail, isPath]
    rfl
  have looked : ∀ {other target},
      Looked { search with path := ⟨vertex, remaining⟩ :: path } other target →
        some (vertex, successor) ≠ some (other, target) → search.Looked other target := by
    intro other target isLooked notCurrent frame member isOther inRemaining
    rw [isPath] at member
    rcases List.mem_cons.mp member with rfl | later
    · rcases List.mem_cons.mp inRemaining with rfl | still
      · exact notCurrent (by rw [← isOther])
      · exact isLooked _ List.mem_cons_self isOther still
    · exact isLooked frame (List.mem_cons_of_mem _ later) isOther inRemaining
  refine { sound with
    onStack := sameTrail ▸ sound.onStack
    remaining := ?_
    looked := fun other opened target leads isLooked notCurrent =>
      sound.looked other opened target leads (looked isLooked notCurrent)
        (Option.some_ne_none _).symm
    down := sameTrail ▸ sound.down
    up := sameTrail ▸ sound.up
    lowLeast := ?_ }
  · intro frame member
    rcases List.mem_cons.mp member with rfl | later
    · intro target still
      exact sound.remaining ⟨vertex, successor :: remaining⟩ (isPath ▸ List.mem_cons_self) target
        (List.mem_cons_of_mem _ still)
    · exact sound.remaining frame (isPath ▸ List.mem_cons_of_mem _ later)
  · intro other member target targetMember leads isLooked notCurrent guard guards
    exact sound.lowLeast other member target targetMember leads (looked isLooked notCurrent)
      (Option.some_ne_none _).symm guard
      ⟨sameTrail ▸ guards.onTrail, guards.before, sameTrail ▸ guards.last⟩

/-- An edge has been looked at when the guard of its vertex is known to lead back far enough. -/
theorem Sound.past
    (sound : search.Sound table (some (vertex, successor)))
    (opened : search.Opened successor)
    (least : successor ∈ search.stack →
      ∀ guard, search.Guards guard vertex → search.low guard ≤ search.rank successor) :
    search.Sound table none := by
  refine { sound with looked := ?_, lowLeast := ?_ }
  · intro other otherOpened target leads isLooked _
    by_cases isCurrent : target = successor
    · exact isCurrent ▸ opened
    · refine sound.looked other otherOpened target leads isLooked fun same => isCurrent ?_
      cases same
      rfl
  · intro other member target targetMember leads isLooked _
    by_cases isCurrent : some (vertex, successor) = some (other, target)
    · cases isCurrent
      exact least targetMember
    · exact sound.lowLeast other member target targetMember leads isLooked isCurrent

end Skipping

section Lowering

variable {table : SuccessorTable} {search : CycleSearch} {current : Option (Nat × Nat)}
  {vertex number : Nat}

theorem low_lower
    (inside : vertex < search.lowest.size)
    (other : Nat) :
    (search.lower vertex number).low other =
      if other = vertex then min (search.low vertex) number else search.low other :=
  getD_setIfInBounds _ _ _ _ _ inside

theorem low_lower_le
    (inside : vertex < search.lowest.size)
    (other : Nat) :
    (search.lower vertex number).low other ≤ search.low other := by
  rw [low_lower inside]
  split
  next same => exact same ▸ Nat.min_le_left _ _
  next => exact Nat.le_refl _

/-- A vertex comes to be known to lead back to another one on the stack. -/
theorem Sound.lower
    (sound : search.Sound table current)
    (member : vertex ∈ search.stack)
    (reached : ∃ back ∈ search.stack, search.rank back = number ∧ table.Reaches vertex back) :
    (search.lower vertex number).Sound table current := by
  have inside : vertex < search.lowest.size :=
    sound.lowestSize.symm ▸ sound.lt_size (sound.opened vertex member)
  refine { sound with
    lowestSize := Array.size_setIfInBounds.trans sound.lowestSize
    lowReached := fun other otherMember => ?_
    lowLeast := fun other otherMember successor successorMember leads isLooked notCurrent guard
      guards => Nat.le_trans (low_lower_le inside guard) (sound.lowLeast other otherMember successor
        successorMember leads isLooked notCurrent guard
        ⟨guards.onTrail, guards.before, guards.last⟩) }
  have before : (search.lower vertex number).low other ≤ search.rank other :=
    Nat.le_trans (low_lower_le inside other) (sound.low_le_rank otherMember)
  by_cases lowered : other = vertex ∧ number ≤ search.low vertex
  · obtain ⟨rfl, least⟩ := lowered
    obtain ⟨back, isBack, isNumber, reaches⟩ := reached
    refine ⟨back, isBack, ?_, before, reaches⟩
    rw [low_lower inside, if_pos rfl, Nat.min_eq_right least]
    exact isNumber
  · have unchanged : (search.lower vertex number).low other = search.low other := by
      rw [low_lower inside]
      split
      next same =>
          subst same
          exact Nat.min_eq_left (Nat.le_of_not_le fun least => lowered ⟨rfl, least⟩)
      next => rfl
    obtain ⟨back, isBack, isLow, _, reaches⟩ := sound.lowReached other otherMember
    exact ⟨back, isBack, isLow.trans unchanged.symm, before, reaches⟩

end Lowering

section Opening

variable {table : SuccessorTable} {search : CycleSearch} {current : Option (Nat × Nat)}
  {vertex other : Nat}

theorem opened_openVertex
    (inside : vertex < search.number.size) :
    (search.openVertex table vertex).Opened other ↔ other = vertex ∨ search.Opened other := by
  rw [Opened, openVertex, getD_setIfInBounds _ _ _ _ _ inside]
  by_cases same : other = vertex <;> simp [same, Opened]

theorem rank_openVertex
    (inside : vertex < search.number.size) :
    (search.openVertex table vertex).rank other =
      if other = vertex then search.next else search.rank other := by
  rw [rank, openVertex, getD_setIfInBounds _ _ _ _ _ inside]
  split <;> rfl

theorem low_openVertex
    (inside : vertex < search.lowest.size) :
    (search.openVertex table vertex).low other =
      if other = vertex then search.next else search.low other :=
  getD_setIfInBounds _ _ _ _ _ inside

namespace Sound

/-- Opening a vertex gives it the next number. -/
theorem rank_openVertex_self
    (sound : search.Sound table current)
    (inside : vertex < table.size) :
    (search.openVertex table vertex).rank vertex = search.next := by
  rw [rank_openVertex (sound.numberSize.symm ▸ inside), if_pos rfl]

/-- Opening a vertex leaves the numbers of those opened before. -/
theorem rank_openVertex_of_opened
    (sound : search.Sound table current)
    (inside : vertex < table.size)
    (unopened : ¬ search.Opened vertex)
    (opened : search.Opened other) :
    (search.openVertex table vertex).rank other = search.rank other := by
  rw [rank_openVertex (sound.numberSize.symm ▸ inside), if_neg]
  rintro rfl
  exact unopened opened

/-- Opening a vertex leaves what is known of those opened before. -/
theorem low_openVertex_of_opened
    (sound : search.Sound table current)
    (inside : vertex < table.size)
    (unopened : ¬ search.Opened vertex)
    (opened : search.Opened other) :
    (search.openVertex table vertex).low other = search.low other := by
  rw [low_openVertex (sound.lowestSize.symm ▸ inside), if_neg]
  rintro rfl
  exact unopened opened

theorem tabled_openVertex
    (sound : search.Sound table current)
    (inside : vertex < table.size)
    (unopened : ¬ search.Opened vertex) :
    (search.openVertex table vertex).Tabled table := by
  have insideNumber : vertex < search.number.size := sound.numberSize.symm ▸ inside
  have insidePending : vertex < search.pending.size := sound.pendingSize.symm ▸ inside
  have newRank := sound.rank_openVertex_self inside
  have oldRank : ∀ {other}, search.Opened other →
      (search.openVertex table vertex).rank other = search.rank other :=
    sound.rank_openVertex_of_opened inside unopened
  constructor
  case numberSize => exact Array.size_setIfInBounds.trans sound.numberSize
  case lowestSize => exact Array.size_setIfInBounds.trans sound.lowestSize
  case pendingSize => exact Array.size_setIfInBounds.trans sound.pendingSize
  case onCycleSize => exact sound.onCycleSize
  case pending =>
      intro other
      rw [openVertex, getD_setIfInBounds _ _ _ _ _ insidePending, List.mem_cons]
      by_cases same : other = vertex
      · simp [same]
      · rw [if_neg same, sound.pending]
        simp [same]
  case opened =>
      intro other member
      exact (opened_openVertex insideNumber).mpr
        ((List.mem_cons.mp member).imp_right (sound.opened other))
  case sorted =>
      refine List.pairwise_cons.mpr ⟨fun other member => ?_, ?_⟩
      · rw [newRank, oldRank (sound.opened other member)]
        exact sound.below other (sound.opened other member)
      · refine sound.sorted.imp_of_mem fun laterMember earlierMember before => ?_
        rw [oldRank (sound.opened _ laterMember), oldRank (sound.opened _ earlierMember)]
        exact before
  case below =>
      intro other opened
      rcases (opened_openVertex insideNumber).mp opened with rfl | before
      · rw [newRank]
        exact Nat.lt_succ_self _
      · rw [oldRank before]
        exact Nat.lt_succ_of_lt (sound.below other before)
  case onStack => exact sound.onStack.cons_cons vertex

theorem explored_openVertex
    (sound : search.Sound table current)
    (onlyCurrent : ∀ source target, current = some (source, target) → target = vertex)
    (inside : vertex < table.size)
    (unopened : ¬ search.Opened vertex) :
    (search.openVertex table vertex).Explored table none := by
  have insideNumber : vertex < search.number.size := sound.numberSize.symm ▸ inside
  have opens : ∀ {other}, (search.openVertex table vertex).Opened other ↔
      other = vertex ∨ search.Opened other :=
    opened_openVertex insideNumber
  have different : ∀ {other}, search.Opened other → other ≠ vertex := by
    rintro other opened rfl
    exact unopened opened
  constructor
  case remaining =>
      intro frame member successor still
      rcases List.mem_cons.mp member with rfl | later
      · exact still
      · exact sound.remaining frame later successor still
  case looked =>
      intro other opened successor leads isLooked _
      by_cases isNew : successor = vertex
      · exact opens.mpr (.inl isNew)
      rcases opens.mp opened with rfl | before
      · exact absurd leads (isLooked _ List.mem_cons_self rfl)
      · refine opens.mpr (.inr (sound.looked other before successor leads ?_ ?_))
        · exact fun frame member => isLooked frame (List.mem_cons_of_mem _ member)
        · exact fun isCurrent => isNew (onlyCurrent _ _ isCurrent)
  case closed =>
      intro other opened notOnStack successor leads
      obtain ⟨notNew, notBefore⟩ := not_or.mp (mt List.mem_cons.mpr notOnStack)
      have before := (opens.mp opened).resolve_left notNew
      obtain ⟨successorOpened, isClosed⟩ := sound.closed other before notBefore successor leads
      refine ⟨opens.mpr (.inr successorOpened), fun member => ?_⟩
      exact (List.mem_cons.mp member).elim (different successorOpened) isClosed
  case cyclic =>
      intro other
      refine (sound.cyclic other).trans ?_
      rw [opens]
      constructor
      · rintro ⟨before, notBefore, onCycle⟩
        exact ⟨.inr before,
          fun member => (List.mem_cons.mp member).elim (different before) notBefore, onCycle⟩
      · rintro ⟨opened, notOnStack, onCycle⟩
        obtain ⟨notNew, notBefore⟩ := not_or.mp (mt List.mem_cons.mpr notOnStack)
        exact ⟨opened.resolve_left notNew, notBefore, onCycle⟩

/-- The guard of a vertex opened before is the one that it had. -/
theorem guards_of_openVertex
    (sound : search.Sound table current)
    (inside : vertex < table.size)
    (unopened : ¬ search.Opened vertex)
    (member : other ∈ search.stack)
    {guard : Nat}
    (guards : (search.openVertex table vertex).Guards guard other) :
    search.Guards guard other := by
  have oldRank := fun {other} (member : other ∈ search.stack) =>
    sound.rank_openVertex_of_opened inside unopened (sound.opened other member)
  have onTrail : guard ∈ search.trail := by
    refine (List.mem_cons.mp guards.onTrail).resolve_left ?_
    rintro rfl
    have before := guards.before
    rw [sound.rank_openVertex_self inside, oldRank member] at before
    exact Nat.not_lt_of_le before (sound.below other (sound.opened other member))
  have guardMember := sound.onStack.mem onTrail
  refine ⟨onTrail, ?_, fun third thirdOnTrail before => ?_⟩
  · rw [← oldRank guardMember, ← oldRank member]
    exact guards.before
  · have thirdMember := sound.onStack.mem thirdOnTrail
    rw [← oldRank guardMember, ← oldRank thirdMember]
    refine guards.last third (List.mem_cons_of_mem _ thirdOnTrail) ?_
    rw [oldRank thirdMember, oldRank member]
    exact before

theorem linked_openVertex
    (sound : search.Sound table current)
    (onlyCurrent : ∀ source target, current = some (source, target) → target = vertex)
    (inside : vertex < table.size)
    (unopened : ¬ search.Opened vertex)
    (reached : ∀ guard ∈ search.trail, table.Reaches guard vertex) :
    (search.openVertex table vertex).Linked table none := by
  have newRank := sound.rank_openVertex_self inside
  have oldRank := fun {other} (member : other ∈ search.stack) =>
    sound.rank_openVertex_of_opened inside unopened (sound.opened other member)
  have oldLow := fun {other} (member : other ∈ search.stack) =>
    sound.low_openVertex_of_opened inside unopened (sound.opened other member)
  have isBelow : ∀ {other}, other ∈ search.stack → search.rank other < search.next :=
    fun member => sound.below _ (sound.opened _ member)
  constructor
  case down =>
      intro guard isGuard other member before
      rcases List.mem_cons.mp isGuard with rfl | guardBefore <;>
        rcases List.mem_cons.mp member with rfl | otherMember
      · exact .refl
      · rw [newRank, oldRank otherMember] at before
        exact absurd (isBelow otherMember) (Nat.not_lt_of_le before)
      · exact reached guard guardBefore
      · rw [oldRank (sound.onStack.mem guardBefore), oldRank otherMember] at before
        exact sound.down guard guardBefore other otherMember before
  case up =>
      intro other member
      rcases List.mem_cons.mp member with rfl | otherMember
      · exact ⟨_, List.mem_cons_self, Nat.le_refl _, .refl⟩
      · obtain ⟨guard, guardBefore, before, reaches⟩ := sound.up other otherMember
        refine ⟨guard, List.mem_cons_of_mem _ guardBefore, ?_, reaches⟩
        rw [oldRank otherMember, oldRank (sound.onStack.mem guardBefore)]
        exact before
  case lowReached =>
      intro other member
      rcases List.mem_cons.mp member with rfl | otherMember
      · have isLow : (search.openVertex table other).low other = search.next := by
          rw [low_openVertex (sound.lowestSize.symm ▸ inside), if_pos rfl]
        exact ⟨other, List.mem_cons_self, newRank.trans isLow.symm,
          Nat.le_of_eq (isLow.trans newRank.symm), .refl⟩
      · obtain ⟨back, isBack, isLow, before, reaches⟩ := sound.lowReached other otherMember
        rw [oldLow otherMember, oldRank otherMember]
        exact ⟨back, List.mem_cons_of_mem _ isBack, (oldRank isBack).trans isLow, before, reaches⟩
  case lowLeast =>
      intro other member successor successorMember leads isLooked _ guard guards
      rcases List.mem_cons.mp member with rfl | otherMember
      · exact absurd leads (isLooked _ List.mem_cons_self rfl)
      · have guardsBefore := sound.guards_of_openVertex inside unopened otherMember guards
        have guardMember := sound.onStack.mem guardsBefore.onTrail
        rw [oldLow guardMember]
        rcases List.mem_cons.mp successorMember with rfl | successorBefore
        · rw [newRank]
          exact Nat.le_trans (sound.low_le_rank guardMember) (Nat.le_of_lt (isBelow guardMember))
        · rw [oldRank successorBefore]
          refine sound.lowLeast other otherMember successor successorBefore leads ?_ ?_ guard
            guardsBefore
          · exact fun frame member => isLooked frame (List.mem_cons_of_mem _ member)
          · intro isCurrent
            exact unopened (onlyCurrent _ _ isCurrent ▸ sound.opened successor successorBefore)

/-- A vertex is opened to which the whole path leads. -/
theorem openVertex
    (sound : search.Sound table current)
    (onlyCurrent : ∀ source target, current = some (source, target) → target = vertex)
    (inside : vertex < table.size)
    (unopened : ¬ search.Opened vertex)
    (reached : ∀ guard ∈ search.trail, table.Reaches guard vertex) :
    (search.openVertex table vertex).Sound table none where
  toTabled := sound.tabled_openVertex inside unopened
  toExplored := sound.explored_openVertex onlyCurrent inside unopened
  toLinked := sound.linked_openVertex onlyCurrent inside unopened reached

end Sound

end Opening

section Leaving

variable {table : SuccessorTable} {search : CycleSearch} {vertex : Nat} {path : List SearchFrame}

/-- Looking at nothing further is looking at everything. -/
theorem Looked.of_leave
    (isPath : search.path = ⟨vertex, []⟩ :: path)
    {other successor : Nat}
    (isLooked : Looked { search with path } other successor) :
    search.Looked other successor := by
  intro frame member isVertex still
  rw [isPath] at member
  rcases List.mem_cons.mp member with rfl | later
  · cases still
  · exact isLooked frame later isVertex still

/-- The guard of a vertex that was opened before the one that is left stays its guard. -/
theorem Guards.of_leave
    (isPath : search.path = ⟨vertex, []⟩ :: path)
    {guard other : Nat}
    (guards : Guards { search with path } guard other)
    (before : search.rank other < search.rank vertex) :
    search.Guards guard other where
  onTrail := by
    rw [trail, isPath]
    exact List.mem_cons_of_mem _ guards.onTrail
  before := guards.before
  last := by
    intro third member thirdBefore
    rw [trail, isPath, List.map_cons] at member
    rcases List.mem_cons.mp member with rfl | later
    · exact absurd before (Nat.not_lt_of_le thirdBefore)
    · exact guards.last third later thirdBefore

/-- A vertex is left that leads back to an earlier one, as its predecessor on the path knows. -/
theorem Sound.leave
    (sound : search.Sound table none)
    (isPath : search.path = ⟨vertex, []⟩ :: path)
    (earlier : search.low vertex < search.rank vertex)
    (informed : ∀ parent rest, path = parent :: rest →
      search.low parent.vertex ≤ search.low vertex) :
    Sound table { search with path } none := by
  have isTrail : search.trail = vertex :: path.map SearchFrame.vertex := by
    rw [trail, isPath]
    rfl
  have member : vertex ∈ search.stack := sound.head_mem isPath
  have onTrail : ∀ {guard}, guard ∈ path.map SearchFrame.vertex → guard ∈ search.trail := by
    intro guard isGuard
    rw [isTrail]
    exact List.mem_cons_of_mem _ isGuard
  -- what leads back to the vertex that is left leads back further
  have up : ∀ {other}, other ∈ search.stack → ∃ guard ∈ path.map SearchFrame.vertex,
      search.rank guard ≤ search.rank other ∧ table.Reaches other guard := by
    intro other otherMember
    obtain ⟨guard, isGuard, before, reaches⟩ := sound.up other otherMember
    rw [isTrail] at isGuard
    rcases List.mem_cons.mp isGuard with rfl | kept
    · obtain ⟨back, isBack, isLow, _, reachesBack⟩ := sound.lowReached guard member
      obtain ⟨further, isFurther, furtherBefore, reachesFurther⟩ := sound.up back isBack
      have early : search.rank further < search.rank guard :=
        Nat.lt_of_le_of_lt furtherBefore (isLow ▸ earlier)
      rw [isTrail] at isFurther
      refine ⟨further, (List.mem_cons.mp isFurther).resolve_left ?_,
        Nat.le_of_lt (Nat.lt_of_lt_of_le early before),
        (reaches.trans reachesBack).trans reachesFurther⟩
      rintro rfl
      exact Nat.lt_irrefl _ early
    · exact ⟨guard, kept, before, reaches⟩
  refine { sound with
    onStack := (isTrail ▸ List.sublist_cons_self _ _ : _).trans sound.onStack
    remaining := fun frame isFrame =>
      sound.remaining frame (isPath ▸ List.mem_cons_of_mem _ isFrame)
    looked := fun other opened successor leads isLooked notCurrent =>
      sound.looked other opened successor leads (isLooked.of_leave isPath) notCurrent
    down := fun guard isGuard => sound.down guard (onTrail isGuard)
    up := fun other otherMember => up otherMember
    lowLeast := ?_ }
  intro other otherMember successor successorMember leads isLooked notCurrent guard guards
  have least := sound.lowLeast other otherMember successor successorMember leads
    (isLooked.of_leave isPath) notCurrent
  rcases Nat.lt_or_ge (search.rank other) (search.rank vertex) with before | after
  · exact least guard (guards.of_leave isPath before)
  · -- what the vertex has guarded is guarded by its predecessor from now on
    have known := least vertex (sound.guards_head isPath after)
    rcases path with _ | ⟨parent, rest⟩
    · cases guards.onTrail
    · have parentBefore : search.rank parent.vertex < search.rank vertex :=
        sound.rank_lt_head isPath List.mem_cons_self
      have sorted := sound.sorted.sublist sound.onStack
      rw [isTrail, List.map_cons, List.pairwise_cons, List.pairwise_cons] at sorted
      have isParent : guard = parent.vertex := by
        refine sound.eq_of_rank (sound.onStack.mem (onTrail guards.onTrail))
          (sound.onStack.mem (onTrail List.mem_cons_self)) (Nat.le_antisymm ?_ ?_)
        · rcases List.mem_cons.mp guards.onTrail with rfl | later
          · exact Nat.le_refl _
          · exact Nat.le_of_lt (sorted.2.1 guard later)
        · exact guards.last parent.vertex List.mem_cons_self
            (Nat.le_of_lt (Nat.lt_of_lt_of_le parentBefore after))
      rw [isParent]
      exact Nat.le_trans (informed parent rest rfl) known

end Leaving

end CycleSearch

end EventQuery
