import EventQuery.Proofs.Aggregate.SearchResult

namespace EventQuery

/-!
# Searches that stay within their tables

The tables of a search are read with a default and written only within their bounds.  Here each of
its operations is given once more so that it has no result when it reads or writes beyond the end of
a table, and the loops have no fuel: they go on until the path is empty and until there are no more
vertices.  On a graph whose edges lead to its own vertices no operation of the search lacks a
result, the loops come to their ends, and what they end with is what the search computes.
-/

section Tables

variable {Entry : Type}

/-- A table with one entry set, if the place is within the table. -/
def put? (entries : Array Entry) (place : Nat) (entry : Entry) : Option (Array Entry) :=
  if place < entries.size then some (entries.setIfInBounds place entry) else none

theorem put?_of_lt
    {entries : Array Entry}
    {place : Nat}
    (inside : place < entries.size)
    (entry : Entry) :
    put? entries place entry = some (entries.setIfInBounds place entry) :=
  if_pos inside

/-- What is read within a table is what is read with a default. -/
theorem getElem?_of_lt
    {entries : Array Entry}
    {place : Nat}
    (inside : place < entries.size)
    (absent : Entry) :
    entries[place]? = some (entries.getD place absent) := by
  rw [Array.getD_eq_getD_getElem?, Array.getElem?_eq_getElem inside, Option.getD_some]

/-- The entries at several places can be set when all are within the table. -/
theorem foldlM_put?
    (entries : Array Entry)
    (places : List Nat)
    (entry : Entry)
    (inside : ∀ place ∈ places, place < entries.size) :
    places.foldlM (fun table place => put? table place entry) entries =
      some (places.foldl (fun table place => table.setIfInBounds place entry) entries) := by
  induction places generalizing entries with
  | nil => rfl
  | cons place rest inductionHypothesis =>
      have others : ∀ later ∈ rest, later < (entries.setIfInBounds place entry).size := by
        rw [Array.size_setIfInBounds]
        exact fun later member => inside later (List.mem_cons_of_mem _ member)
      rw [List.foldlM_cons, put?_of_lt (inside place List.mem_cons_self), List.foldl_cons]
      exact inductionHypothesis _ others

end Tables

namespace SuccessorTable

variable {table : SuccessorTable}

/-- The edges of a graph lead to its vertices when all entries of the table are vertices. -/
theorem complete_iff :
    table.Complete ↔ ∀ successors ∈ table, ∀ successor ∈ successors, successor < table.size := by
  constructor
  · intro complete successors member successor isSuccessor
    obtain ⟨vertex, inside, rfl⟩ := Array.mem_iff_getElem.mp member
    refine complete vertex successor ?_
    rw [Leads, SuccessorTable.successors, Array.getD_eq_getD_getElem?,
      Array.getElem?_eq_getElem inside]
    exact isSuccessor
  · intro entries vertex successor leads
    rw [Leads, SuccessorTable.successors, Array.getD_eq_getD_getElem?] at leads
    cases isRow : table[vertex]? with
    | none =>
        rw [isRow] at leads
        cases leads
    | some row =>
        rw [isRow] at leads
        exact entries row (Array.mem_of_getElem? isRow) successor leads

instance : Decidable table.Complete := decidable_of_iff _ complete_iff.symm

end SuccessorTable

namespace CycleSearch

/-! ## Operations within bounds -/

/-- Open a vertex and go on from it, if it is a vertex of the graph. -/
def openVertex? (table : SuccessorTable) (search : CycleSearch) (vertex : Nat) :
    Option CycleSearch := do
  let number ← put? search.number vertex (some search.next)
  let lowest ← put? search.lowest vertex search.next
  let pending ← put? search.pending vertex true
  let successors ← table[vertex]?
  return { search with
    number
    lowest
    pending
    stack := vertex :: search.stack
    next := search.next + 1
    path := ⟨vertex, successors⟩ :: search.path }

/-- A vertex is known to lead back to a number, if the vertex has an entry. -/
def lower? (search : CycleSearch) (vertex number : Nat) : Option CycleSearch := do
  let known ← search.lowest[vertex]?
  let lowest ← put? search.lowest vertex (min known number)
  return { search with lowest }

/-- Close the component that a vertex was the first of, if its vertices have entries. -/
def closeComponent? (table : SuccessorTable) (search : CycleSearch) (vertex : Nat) :
    Option CycleSearch := do
  let (component, below) := splitThrough vertex search.stack
  let pending ← component.foldlM (fun pending member => put? pending member false) search.pending
  let successors ← table[vertex]?
  if 1 < component.length || successors.contains vertex then
    let onCycle ← component.foldlM (fun onCycle member => put? onCycle member true) search.onCycle
    return { search with stack := below, pending, onCycle }
  else return { search with stack := below, pending }

/-- Leave a vertex whose successors have all been looked at, if it has entries. -/
def retreat? (table : SuccessorTable) (search : CycleSearch) (vertex : Nat)
    (path : List SearchFrame) : Option CycleSearch := do
  let back := { search with path }
  let informed ←
    match path with
    | parent :: _ => do back.lower? parent.vertex (← search.lowest[vertex]?)
    | [] => some back
  -- the entry is read again, after the predecessor on the path has been informed
  let lowest ← informed.lowest[vertex]?
  let number ← informed.number[vertex]?
  if number == some lowest then closeComponent? table informed vertex else return informed

/-- Look at one successor of a vertex on the path, if it is a vertex of the graph. -/
def look? (table : SuccessorTable) (search : CycleSearch) (vertex successor : Nat) :
    Option CycleSearch := do
  match ← search.number[successor]? with
  | none => openVertex? table search successor
  | some number =>
      if ← search.pending[successor]? then search.lower? vertex number else return search

/-- One step of the search, if the path is not empty and the step stays within the tables. -/
def step? (table : SuccessorTable) (search : CycleSearch) : Option CycleSearch :=
  match search.path with
  | [] => none
  | ⟨vertex, []⟩ :: path => retreat? table search vertex path
  | ⟨vertex, successor :: remaining⟩ :: path =>
      look? table { search with path := ⟨vertex, remaining⟩ :: path } vertex successor

/-- The loop that takes steps within the tables until the path is empty. -/
inductive Ends (table : SuccessorTable) : CycleSearch → CycleSearch → Prop
  | rest {search : CycleSearch} (ended : search.path = []) : Ends table search search
  | step {search next final : CycleSearch} (taken : search.step? table = some next)
      (further : Ends table next final) : Ends table search final

/-- The loop that searches within the tables from those of some vertices that are not opened. -/
inductive EndsAll (table : SuccessorTable) : List Nat → CycleSearch → CycleSearch → Prop
  | done {search : CycleSearch} : EndsAll table [] search search
  | pass {vertex number : Nat} {rest : List Nat} {search final : CycleSearch}
      (before : search.number[vertex]? = some (some number))
      (further : EndsAll table rest search final) : EndsAll table (vertex :: rest) search final
  | visit {vertex : Nat} {rest : List Nat} {search first last final : CycleSearch}
      (isNew : search.number[vertex]? = some none)
      (opened : search.openVertex? table vertex = some first)
      (ends : Ends table first last)
      (further : EndsAll table rest last final) : EndsAll table (vertex :: rest) search final

variable {table : SuccessorTable} {search final other : CycleSearch} {vertex : Nat}

/-- The loop over the path has at most one end. -/
theorem Ends.unique
    (ends : Ends table search final)
    (endsOther : Ends table search other) :
    other = final := by
  -- at the end of a path no step can be taken, so the two rules exclude each other
  have stuck : ∀ {search : CycleSearch}, search.path = [] → search.step? table = none := by
    intro search ended
    rw [step?, ended]
  induction ends with
  | rest ended =>
      cases endsOther with
      | rest => rfl
      | step taken => cases (stuck ended).symm.trans taken
  | step taken _ inductionHypothesis =>
      cases endsOther with
      | rest ended => cases (stuck ended).symm.trans taken
      | step takenOther furtherOther =>
          cases taken.symm.trans takenOther
          exact inductionHypothesis furtherOther

/-- The loop over the vertices has at most one end. -/
theorem EndsAll.unique
    {vertices : List Nat}
    (ends : EndsAll table vertices search final)
    (endsOther : EndsAll table vertices search other) :
    other = final := by
  induction ends with
  | done =>
      cases endsOther
      rfl
  | pass before _ inductionHypothesis =>
      cases endsOther with
      | pass _ further => exact inductionHypothesis further
      | visit isNew => cases before.symm.trans isNew
  | visit isNew opened ends _ inductionHypothesis =>
      cases endsOther with
      | pass before => cases before.symm.trans isNew
      | visit _ openedOther endsOther furtherOther =>
          cases opened.symm.trans openedOther
          cases ends.unique endsOther
          exact inductionHypothesis furtherOther

/-! ## Sound searches stay within their tables -/

theorem Tabled.openVertex?_eq
    (tabled : search.Tabled table)
    (inside : vertex < table.size) :
    search.openVertex? table vertex = some (search.openVertex table vertex) := by
  rw [openVertex?, put?_of_lt (tabled.numberSize.symm ▸ inside),
    put?_of_lt (tabled.lowestSize.symm ▸ inside), put?_of_lt (tabled.pendingSize.symm ▸ inside),
    getElem?_of_lt inside []]
  rfl

theorem lower?_eq
    (inside : vertex < search.lowest.size)
    (number : Nat) :
    search.lower? vertex number = some (search.lower vertex number) := by
  rw [lower?, getElem?_of_lt inside 0]
  exact congrArg (· >>= _) (put?_of_lt inside _)

/-- The vertices opened since a vertex are on the stack. -/
theorem mem_of_mem_splitThrough
    {stack : List Nat}
    {member : Nat}
    (isMember : member ∈ (splitThrough vertex stack).1) :
    member ∈ stack := by
  induction stack with
  | nil => exact isMember
  | cons top rest inductionHypothesis =>
      rw [splitThrough] at isMember
      split at isMember
      next => exact List.mem_cons.mpr (.inl (List.mem_singleton.mp isMember))
      next => exact List.mem_cons.mpr ((List.mem_cons.mp isMember).imp_right inductionHypothesis)

theorem closeComponent?_eq
    (pendingSize : search.pending.size = table.size)
    (onCycleSize : search.onCycle.size = table.size)
    (stackInside : ∀ member ∈ search.stack, member < table.size)
    (inside : vertex < table.size) :
    search.closeComponent? table vertex = some (search.closeComponent table vertex) := by
  have componentInside : ∀ member ∈ (splitThrough vertex search.stack).1, member < table.size :=
    fun member isMember => stackInside member (mem_of_mem_splitThrough isMember)
  rw [closeComponent?, closeComponent]
  dsimp only
  rw [foldlM_put? _ _ _ (pendingSize.symm ▸ componentInside), getElem?_of_lt inside [],
    foldlM_put? _ _ _ (onCycleSize.symm ▸ componentInside)]
  by_cases isCyclic : (decide (1 < (splitThrough vertex search.stack).1.length) ||
      (table.getD vertex []).contains vertex) = true <;>
    simp only [SuccessorTable.successors, Option.bind_eq_bind, Option.bind_some, isCyclic,
      if_true] <;> rfl

namespace Sound

variable {current : Option (Nat × Nat)} {frame : SearchFrame} {path : List SearchFrame}

theorem stack_lt_size
    (sound : search.Sound table current)
    (member : vertex ∈ search.stack) :
    vertex < table.size :=
  sound.lt_size (sound.opened vertex member)

theorem retreat?_eq
    (sound : search.Sound table current)
    (isPath : search.path = ⟨vertex, []⟩ :: path) :
    search.retreat? table vertex path = some (search.retreat table vertex path) := by
  have inside := sound.stack_lt_size (sound.head_mem isPath)
  have numbered : search.number[vertex]? = some (search.number.getD vertex none) :=
    getElem?_of_lt (sound.numberSize.symm ▸ inside) none
  have known : search.lowest[vertex]? = some (search.low vertex) :=
    getElem?_of_lt (sound.lowestSize.symm ▸ inside) 0
  have settles : ∀ (informed : CycleSearch) (isRoot : Bool), informed.pending = search.pending →
      informed.onCycle = search.onCycle → informed.stack = search.stack →
        (if isRoot then informed.closeComponent? table vertex else some informed) =
          some (if isRoot then informed.closeComponent table vertex else informed) := by
    intro informed isRoot samePending sameOnCycle sameStack
    have closes : informed.closeComponent? table vertex =
        some (informed.closeComponent table vertex) :=
      closeComponent?_eq (samePending ▸ sound.pendingSize) (sameOnCycle ▸ sound.onCycleSize)
        (sameStack ▸ fun _ member => sound.stack_lt_size member) inside
    cases isRoot
    · rfl
    · exact closes
  rcases path with _ | ⟨parent, rest⟩
  · rw [retreat?, CycleSearch.retreat]
    simp only [Option.bind_eq_bind, Option.bind_some, known, numbered]
    exact settles { search with path := [] } _ rfl rfl rfl
  · -- the predecessor on the path is another vertex, so the entry that is read again is the same
    have onTrail : parent.vertex ∈ search.trail := by
      rw [trail, isPath]
      exact List.mem_cons_of_mem _ List.mem_cons_self
    have insideParent : parent.vertex < search.lowest.size :=
      sound.lowestSize.symm ▸ sound.stack_lt_size (sound.onStack.mem onTrail)
    have different : vertex ≠ parent.vertex := by
      rintro rfl
      exact Nat.lt_irrefl _ (sound.rank_lt_head isPath List.mem_cons_self)
    have informs : { search with path := parent :: rest }.lower? parent.vertex (search.low vertex) =
        some ({ search with path := parent :: rest }.lower parent.vertex (search.low vertex)) := by
      refine lower?_eq ?_ _
      exact insideParent
    have knownAgain : ({ search with path := parent :: rest }.lower parent.vertex
        (search.low vertex)).lowest[vertex]? = some (search.low vertex) :=
      (Array.getElem?_setIfInBounds_ne different.symm).trans known
    have numberedAgain : ({ search with path := parent :: rest }.lower parent.vertex
        (search.low vertex)).number[vertex]? = some (search.number.getD vertex none) :=
      numbered
    rw [retreat?, CycleSearch.retreat]
    simp only [Option.bind_eq_bind, Option.bind_some, known, informs, knownAgain, numberedAgain]
    exact settles ({ search with path := parent :: rest }.lower parent.vertex (search.low vertex)) _
      rfl rfl rfl

theorem look?_eq
    {successor : Nat}
    (sound : search.Sound table current)
    (isPath : search.path = frame :: path)
    (inside : successor < table.size) :
    search.look? table frame.vertex successor =
      some (search.look table frame.vertex successor) := by
  have insideLowest : frame.vertex < search.lowest.size :=
    sound.lowestSize.symm ▸ sound.stack_lt_size (sound.head_mem isPath)
  rw [look?, CycleSearch.look, getElem?_of_lt (sound.numberSize.symm ▸ inside) none,
    getElem?_of_lt (sound.pendingSize.symm ▸ inside) false]
  simp only [Option.bind_eq_bind, Option.bind_some]
  cases search.number.getD successor none with
  | none => exact sound.openVertex?_eq inside
  | some number =>
      cases search.pending.getD successor false with
      | false => rfl
      | true => exact lower?_eq insideLowest number

/-- A step of a sound search before the end of its path stays within the tables. -/
theorem step?_eq
    (complete : table.Complete)
    (sound : search.Sound table none)
    (goesOn : search.path ≠ []) :
    search.step? table = some (search.step table) := by
  rw [step?, CycleSearch.step]
  rcases isPath : search.path with _ | ⟨⟨vertex, _ | ⟨successor, remaining⟩⟩, path⟩
  · exact absurd isPath goesOn
  · exact sound.retreat?_eq isPath
  · have leads : table.Leads vertex successor :=
      sound.remaining _ (isPath ▸ List.mem_cons_self) successor List.mem_cons_self
    exact (sound.skip isPath).look?_eq rfl (complete vertex successor leads)

end Sound

/-! ## The loops come to their ends -/

/-- The loop over the path ends with what a run with enough fuel computes. -/
theorem ends_run
    (complete : table.Complete)
    {fuel : Nat}
    (sound : search.Sound table none)
    (workLeft : search.potential table ≤ fuel) :
    Ends table search (search.run table fuel) := by
  -- the work that is left goes down with each step, so the fuel lasts to the end of the path
  induction fuel generalizing search with
  | zero => exact .rest (rests_run complete sound workLeft).1.ended
  | succ fuel inductionHypothesis =>
      rw [run]
      split
      next isPath => exact .rest isPath
      next isPath =>
          have goesOn : search.path ≠ [] := by
            rw [isPath]
            exact List.cons_ne_nil _ _
          have advance := advance_step complete sound goesOn
          exact .step (sound.step?_eq complete goesOn) (inductionHypothesis advance.sound
            (Nat.le_of_lt_succ (Nat.lt_of_lt_of_le advance.less workLeft)))

/-- The loop over some vertices ends with what the search from each of them computes. -/
theorem endsAll_foldl
    (complete : table.Complete)
    (vertices : List Nat)
    (inside : ∀ vertex ∈ vertices, vertex < table.size)
    (rests : search.Rests table) :
    EndsAll table vertices search (vertices.foldl (visit table) search) := by
  induction vertices generalizing search with
  | nil => exact .done
  | cons vertex rest inductionHypothesis =>
      have insideFirst := inside vertex List.mem_cons_self
      have further := inductionHypothesis
        (fun other member => inside other (List.mem_cons_of_mem _ member))
        (rests_visit complete rests insideFirst).1
      have read := getElem?_of_lt (rests.numberSize.symm ▸ insideFirst) none
      rw [List.foldl_cons]
      rw [visit] at further ⊢
      cases isNumber : search.number.getD vertex none with
      | some number =>
          rw [isNumber] at read further
          exact .pass read further
      | none =>
          rw [isNumber] at read further
          have unopened : ¬ search.Opened vertex := by
            rw [Opened, isNumber]
            exact Bool.false_ne_true
          obtain ⟨sound, workLeft⟩ := rests.openVertex insideFirst unopened
          exact .visit read (rests.openVertex?_eq insideFirst) (ends_run complete sound workLeft)
            further

/--
On a graph whose edges lead to its own vertices the search stays within its tables and comes to an
end, and there is one end only.  It has a mark for each vertex, which says whether edges lead from
the vertex back to it.
-/
theorem endsAll_marks
    (complete : table.Complete) :
    ∃ final, (∀ other, EndsAll table (List.range table.size) (start table.size) other ↔
        other = final) ∧
      final.onCycle = cyclic table ∧ final.onCycle.size = table.size ∧
      ∀ vertex < table.size, ∃ mark, final.onCycle[vertex]? = some mark ∧
        (mark = true ↔ table.OnCycle vertex) := by
  have ends : EndsAll table (List.range table.size) (start table.size)
      (CycleSearch.complete table) :=
    endsAll_foldl complete _ (fun _ => List.mem_range.mp) ⟨Sound.start table, rfl⟩
  refine ⟨CycleSearch.complete table, fun other => ⟨ends.unique, fun same => same ▸ ends⟩, rfl,
    size_cyclic complete, fun vertex inside => ?_⟩
  exact ⟨_, getElem?_of_lt ((size_cyclic complete).symm ▸ inside) false,
    getD_cyclic complete inside⟩

/-- Two equal edges into a cycle of two, a loop, and a vertex that nothing leads to. -/
def twoCycles : SuccessorTable := #[[1, 1], [2, 1], [1], [3], [0, 3]]

theorem endsAll_marks_twoCycles :
    twoCycles.Complete ∧ ∃ final,
      (∀ other, EndsAll twoCycles (List.range 5) (start 5) other ↔ other = final) ∧
        final.onCycle = #[false, true, true, true, false] := by
  have complete : twoCycles.Complete := by decide
  obtain ⟨final, only, marks, _⟩ := endsAll_marks complete
  exact ⟨complete, final, only, marks.trans (by decide +kernel)⟩

end CycleSearch

end EventQuery
