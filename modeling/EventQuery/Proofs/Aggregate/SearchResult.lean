import EventQuery.Proofs.Aggregate.SearchComponents
import Mathlib.Algebra.BigOperators.Fin
import Mathlib.Algebra.Order.BigOperators.Group.Finset

namespace EventQuery

namespace CycleSearch

/-!
# What a search finds

Every step uses up some of the work that is left: the edges and vertices that are still to be looked
at.  So the search from a vertex comes to its end within its fuel, and then everything that has been
opened is closed.  After the search from every vertex the marked vertices are those on cycles.
-/

/-- The work that is left for a vertex that has not been opened. -/
def work (table : SuccessorTable) (search : CycleSearch) (vertex : Nat) : Nat :=
  if (search.number.getD vertex none).isSome then 0 else (table.successors vertex).length + 2

/-- The work that is left for a search. -/
def potential (table : SuccessorTable) (search : CycleSearch) : Nat :=
  ∑ vertex ∈ Finset.range table.size, search.work table vertex +
    (search.path.map fun frame => frame.remaining.length + 1).sum

/-- A step of a search, in which some work is done and everything opened stays opened. -/
structure Advance (table : SuccessorTable) (search next : CycleSearch) : Prop where
  sound : next.Sound table none
  less : next.potential table < search.potential table
  kept : ∀ vertex, search.Opened vertex → next.Opened vertex

/-- A search that has come to the end of its path. -/
structure Rests (table : SuccessorTable) (search : CycleSearch) : Prop extends
    search.Sound table none where
  ended : search.path = []

section Stepping

variable {table : SuccessorTable} {search : CycleSearch} {vertex : Nat}

/-- Opening a vertex is work. -/
theorem potential_openVertex
    (inside : vertex < table.size)
    (insideNumber : vertex < search.number.size)
    (unopened : ¬ search.Opened vertex) :
    (search.openVertex table vertex).potential table + 1 = search.potential table := by
  have member : vertex ∈ Finset.range table.size := Finset.mem_range.mpr inside
  have others : ∑ other ∈ (Finset.range table.size).erase vertex,
        (search.openVertex table vertex).work table other =
      ∑ other ∈ (Finset.range table.size).erase vertex, search.work table other := by
    refine Finset.sum_congr rfl fun other isOther => ?_
    rw [work, work, openVertex, getD_setIfInBounds _ _ _ _ _ insideNumber,
      if_neg (Finset.ne_of_mem_erase isOther)]
  have done : (search.openVertex table vertex).work table vertex = 0 := by
    rw [work, openVertex, getD_setIfInBounds _ _ _ _ _ insideNumber, if_pos rfl]
    rfl
  have due : search.work table vertex = (table.successors vertex).length + 2 := if_neg unopened
  rw [potential, potential, ← Finset.add_sum_erase _ _ member, ← Finset.add_sum_erase _ _ member,
    others, done, due]
  simp only [openVertex, List.map_cons, List.sum_cons]
  omega

/-- The vertex that an edge leads to is opened, or the edge tells how far it leads back. -/
theorem Sound.look
    {successor : Nat}
    {remaining : List Nat}
    {path : List SearchFrame}
    (sound : search.Sound table (some (vertex, successor)))
    (isPath : search.path = ⟨vertex, remaining⟩ :: path)
    (leads : table.Leads vertex successor)
    (inside : successor < table.size) :
    (look table search vertex successor).Sound table none ∧
      (look table search vertex successor).potential table ≤ search.potential table ∧
        ∀ other, search.Opened other → (look table search vertex successor).Opened other := by
  have insideNumber : successor < search.number.size := sound.numberSize.symm ▸ inside
  have member : vertex ∈ search.stack := sound.head_mem isPath
  rw [CycleSearch.look]
  split
  next isNew =>
      have unopened : ¬ search.Opened successor := by
        rw [Opened, isNew]
        exact Bool.false_ne_true
      have less := potential_openVertex inside insideNumber unopened
      refine ⟨sound.openVertex ?_ inside unopened fun guard onTrail => ?_, Nat.le_of_succ_le
        (Nat.le_of_eq less), fun other opened => (opened_openVertex insideNumber).mpr (.inr opened)⟩
      · rintro _ _ ⟨⟩
        rfl
      · exact (sound.down guard onTrail _ member (sound.rank_le_head isPath onTrail)).tail leads
  next number isNumber =>
      have opened : search.Opened successor := by
        rw [Opened, isNumber]
        rfl
      obtain rfl : search.rank successor = number :=
        Option.some.inj ((number_of_opened opened).symm.trans isNumber)
      split
      next isPending =>
          have onStack := (sound.pending successor).mp isPending
          have lowered := sound.lower member ⟨successor, onStack, rfl, .single leads⟩
          refine ⟨lowered.past opened fun _ guard guards => ?_, Nat.le_refl _, fun _ => id⟩
          have isHead : guard = vertex :=
            lowered.eq_head_of_guards isPath (Nat.le_refl _) guards
          rw [isHead, low_lower (sound.lowestSize.symm ▸ sound.lt_size (sound.opened _ member)),
            if_pos rfl]
          exact Nat.min_le_right _ _
      next notPending =>
          have isClosed := mt (sound.pending successor).mpr notPending
          exact ⟨sound.past opened fun onStack => absurd onStack isClosed, Nat.le_refl _,
            fun _ => id⟩

/-- The end of the path is left, with the component of which it is the root. -/
theorem Sound.retreat
    {path : List SearchFrame}
    (sound : search.Sound table none)
    (isPath : search.path = ⟨vertex, []⟩ :: path) :
    (retreat table search vertex path).Sound table none := by
  have member : vertex ∈ search.stack := sound.head_mem isPath
  have number := number_of_opened (sound.opened vertex member)
  obtain ⟨back, isBack, isLow, lowest, reaches⟩ := sound.lowReached vertex member
  rcases path with _ | ⟨parent, rest⟩
  · have isRoot : search.low vertex = search.rank vertex := by
      obtain ⟨guard, onTrail, before, _⟩ := sound.up back isBack
      rw [trail, isPath] at onTrail
      rw [List.mem_singleton.mp onTrail, isLow] at before
      exact Nat.le_antisymm lowest before
    change Sound table (if search.number.getD vertex none == some (search.low vertex) then
      closeComponent table { search with path := [] } vertex else { search with path := [] }) none
    rw [number, isRoot, if_pos (beq_self_eq_true _)]
    exact sound.close isPath isRoot
  · -- the predecessor on the path comes to know how far the vertex leads back
    have onTrail : parent.vertex ∈ search.trail := by
      rw [trail, isPath]
      exact List.mem_cons_of_mem _ List.mem_cons_self
    have before : search.rank parent.vertex < search.rank vertex :=
      sound.rank_lt_head isPath List.mem_cons_self
    have parentMember := sound.onStack.mem onTrail
    have informed := sound.lower parentMember ⟨back, isBack, isLow,
      (sound.down _ onTrail vertex member (Nat.le_of_lt before)).trans reaches⟩
    have insideLowest : parent.vertex < search.lowest.size :=
      sound.lowestSize.symm ▸ sound.lt_size (sound.opened _ parentMember)
    have sameLow : (search.lower parent.vertex (search.low vertex)).low vertex =
        search.low vertex := by
      rw [low_lower insideLowest, if_neg]
      rintro rfl
      exact Nat.lt_irrefl _ before
    change Sound table (if search.number.getD vertex none == some (search.low vertex) then
      closeComponent table { search.lower parent.vertex (search.low vertex) with
        path := parent :: rest } vertex
      else { search.lower parent.vertex (search.low vertex) with path := parent :: rest }) none
    rw [number]
    split
    next isRoot =>
        have isRoot : search.rank vertex = search.low vertex := Option.some.inj (eq_of_beq isRoot)
        exact informed.close isPath (sameLow.trans isRoot.symm)
    next notRoot =>
        have earlier : search.low vertex < search.rank vertex :=
          Nat.lt_of_le_of_ne lowest fun same => notRoot (by rw [same]; exact beq_self_eq_true _)
        refine informed.leave isPath (sameLow.symm ▸ earlier) ?_
        rintro _ _ ⟨⟩
        rw [sameLow, low_lower insideLowest, if_pos rfl]
        exact Nat.min_le_right _ _

/-- Leaving the end of the path is work, and nothing is opened by it. -/
theorem advance_retreat
    {path : List SearchFrame}
    (sound : search.Sound table none)
    (isPath : search.path = ⟨vertex, []⟩ :: path) :
    Advance table search (search.retreat table vertex path) := by
  have untouched : (search.retreat table vertex path).number = search.number ∧
      (search.retreat table vertex path).path = path := by
    rcases path with _ | ⟨parent, rest⟩ <;>
    · rw [CycleSearch.retreat]
      split <;> exact ⟨rfl, rfl⟩
  refine ⟨sound.retreat isPath, ?_, fun other opened => ?_⟩
  · simp only [potential, work, untouched.1, untouched.2, isPath, List.map_cons, List.sum_cons]
    omega
  · rw [Opened, untouched.1]
    exact opened

/-- Every step before the end of the path is an advance. -/
theorem advance_step
    (complete : table.Complete)
    (sound : search.Sound table none)
    (goesOn : search.path ≠ []) :
    Advance table search (search.step table) := by
  rw [step]
  split
  next isPath => exact absurd isPath goesOn
  next vertex path isPath => exact advance_retreat sound isPath
  next vertex successor remaining path isPath =>
      have leads : table.Leads vertex successor :=
        sound.remaining _ (isPath ▸ List.mem_cons_self) successor List.mem_cons_self
      obtain ⟨looked, less, kept⟩ :=
        (sound.skip isPath).look rfl leads (complete vertex successor leads)
      refine ⟨looked, Nat.lt_of_le_of_lt less ?_, kept⟩
      simp only [potential, work, isPath, List.map_cons, List.sum_cons, List.length_cons]
      omega

/-- A search with enough fuel for its work comes to the end of its path. -/
theorem rests_run
    (complete : table.Complete)
    {fuel : Nat}
    (sound : search.Sound table none)
    (workLeft : search.potential table ≤ fuel) :
    (search.run table fuel).Rests table ∧
      ∀ vertex, search.Opened vertex → (search.run table fuel).Opened vertex := by
  induction fuel generalizing search with
  | zero =>
      refine ⟨⟨sound, ?_⟩, fun _ => id⟩
      rcases isPath : search.path with _ | ⟨frame, path⟩
      · exact isPath
      · simp only [potential, isPath, List.map_cons, List.sum_cons] at workLeft
        omega
  | succ fuel inductionHypothesis =>
      rw [run]
      split
      next isPath => exact ⟨⟨sound, isPath⟩, fun _ => id⟩
      next isPath =>
          have advance := advance_step complete sound (by rw [isPath]; exact List.cons_ne_nil _ _)
          obtain ⟨rests, kept⟩ := inductionHypothesis advance.sound
            (Nat.le_of_lt_succ (Nat.lt_of_lt_of_le advance.less workLeft))
          exact ⟨rests, fun vertex opened => kept vertex (advance.kept vertex opened)⟩

end Stepping

section Complete

variable {table : SuccessorTable} {search : CycleSearch}

/-- What suffices for a search is the work on all vertices. -/
theorem enough_eq (table : SuccessorTable) :
    enough table =
      ∑ vertex ∈ Finset.range table.size, ((table.successors vertex).length + 2) := by
  have lengths : table.edgeCount =
      ∑ vertex ∈ Finset.range table.size, (table.successors vertex).length := by
    rw [SuccessorTable.edgeCount, ← Array.foldl_toList, ← List.foldl_map, ← List.sum_eq_foldl,
      ← Fin.sum_univ_fun_getElem, Finset.sum_range]
    refine Finset.sum_congr rfl fun vertex _ => ?_
    rw [SuccessorTable.successors, Array.getD_eq_getD_getElem?]
    simp
  rw [enough, lengths, Finset.sum_add_distrib, Finset.sum_const, Finset.card_range, smul_eq_mul,
    Nat.mul_comm]

/-- At the end of its path a search has closed everything that it has opened. -/
theorem Rests.stack_eq_nil
    (rests : search.Rests table) :
    search.stack = [] := by
  refine List.eq_nil_iff_forall_not_mem.mpr fun vertex member => ?_
  obtain ⟨guard, onTrail, _⟩ := rests.up vertex member
  rw [trail, rests.ended] at onTrail
  cases onTrail

/-- A vertex is opened at the end of a path, and the work that is then left is within the fuel. -/
theorem Rests.openVertex
    (rests : search.Rests table)
    {vertex : Nat}
    (inside : vertex < table.size)
    (unopened : ¬ search.Opened vertex) :
    (search.openVertex table vertex).Sound table none ∧
      (search.openVertex table vertex).potential table ≤ enough table := by
  have noEdge : ∀ source target : Nat, none = some (source, target) → target = vertex :=
    fun _ _ isEdge => absurd isEdge (Option.some_ne_none _).symm
  have noGuard : ∀ guard ∈ search.trail, table.Reaches guard vertex := by
    rw [trail, rests.ended]
    exact fun _ onTrail => absurd onTrail List.not_mem_nil
  have workLeft : search.potential table ≤ enough table := by
    rw [potential, rests.ended, enough_eq, List.map_nil, List.sum_nil, Nat.add_zero]
    refine Finset.sum_le_sum fun other _ => ?_
    rw [work]
    split <;> omega
  have spent := potential_openVertex inside (rests.numberSize.symm ▸ inside) unopened
  exact ⟨rests.toSound.openVertex noEdge inside unopened noGuard,
    Nat.le_trans (Nat.le_of_succ_le (Nat.le_of_eq spent)) workLeft⟩

/-- The search from a vertex opens it and comes to its end. -/
theorem rests_visit
    (complete : table.Complete)
    (rests : search.Rests table)
    {vertex : Nat}
    (inside : vertex < table.size) :
    (search.visit table vertex).Rests table ∧ (search.visit table vertex).Opened vertex ∧
      ∀ other, search.Opened other → (search.visit table vertex).Opened other := by
  rw [visit]
  split
  next number isNumber =>
      refine ⟨rests, ?_, fun _ => id⟩
      rw [Opened, isNumber]
      rfl
  next isNew =>
      have unopened : ¬ search.Opened vertex := by
        rw [Opened, isNew]
        exact Bool.false_ne_true
      have insideNumber : vertex < search.number.size := rests.numberSize.symm ▸ inside
      obtain ⟨opened, workLeft⟩ := rests.openVertex inside unopened
      obtain ⟨restsAfter, kept⟩ := rests_run complete opened workLeft
      exact ⟨restsAfter, kept vertex ((opened_openVertex insideNumber).mpr (.inl rfl)),
        fun other before => kept other ((opened_openVertex insideNumber).mpr (.inr before))⟩

/-- The search from several vertices opens them all and comes to its end. -/
theorem rests_foldl_visit
    (complete : table.Complete)
    (vertices : List Nat)
    (inside : ∀ vertex ∈ vertices, vertex < table.size)
    (rests : search.Rests table) :
    (vertices.foldl (visit table) search).Rests table ∧
      (∀ vertex ∈ vertices, (vertices.foldl (visit table) search).Opened vertex) ∧
      ∀ other, search.Opened other → (vertices.foldl (visit table) search).Opened other := by
  induction vertices generalizing search with
  | nil => exact ⟨rests, (fun _ member => nomatch member), fun _ => id⟩
  | cons vertex rest inductionHypothesis =>
      obtain ⟨restsFirst, openedFirst, keptFirst⟩ :=
        rests_visit complete rests (inside vertex List.mem_cons_self)
      obtain ⟨restsLast, openedLast, keptLast⟩ := inductionHypothesis
        (fun other member => inside other (List.mem_cons_of_mem _ member)) restsFirst
      exact ⟨restsLast, List.forall_mem_cons.mpr ⟨keptLast vertex openedFirst, openedLast⟩,
        fun other before => keptLast other (keptFirst other before)⟩

/-- The search has a mark for each vertex of a graph. -/
theorem size_cyclic
    (complete : table.Complete) :
    (cyclic table).size = table.size :=
  (rests_foldl_visit complete (List.range table.size) (fun _ => List.mem_range.mp)
    ⟨Sound.start table, rfl⟩).1.onCycleSize

/-- The search marks a vertex of a graph exactly when it lies on a directed cycle. -/
theorem getD_cyclic
    (complete : table.Complete)
    {vertex : Nat}
    (inside : vertex < table.size) :
    (cyclic table).getD vertex false = true ↔ table.OnCycle vertex := by
  obtain ⟨rests, opened, _⟩ := rests_foldl_visit complete (List.range table.size)
    (fun _ => List.mem_range.mp) ⟨Sound.start table, rfl⟩
  have isOpened := opened vertex (List.mem_range.mpr inside)
  have isClosed := List.eq_nil_iff_forall_not_mem.mp rests.stack_eq_nil vertex
  exact (rests.cyclic vertex).trans
    ⟨fun closed => closed.2.2, fun onCycle => ⟨isOpened, isClosed, onCycle⟩⟩

end Complete

end CycleSearch

end EventQuery
