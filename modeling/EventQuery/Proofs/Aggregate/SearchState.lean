import EventQuery.Aggregate.CycleSearch
import Mathlib.Data.List.Pairwise
import Mathlib.Logic.Relation

namespace EventQuery

/-!
# What holds in the course of a search

A search for cycles opens each vertex once and closes it once.  The vertices that are opened and not
yet closed are on its stack, and those of them that are on its path guard the others: each vertex on
the stack leads back to one on the path that was opened no later, and is reached from all such.  The
least number that the last of these is known to lead back to is not above the number of a successor
on the stack.  So a vertex that leads back to no earlier one closes a component, and what its edges
lead to outside of the component has been closed before.
-/

namespace SuccessorTable

/-- Whether an edge leads from a vertex to another. -/
def Leads (table : SuccessorTable) (vertex successor : Nat) : Prop :=
  successor ∈ table.successors vertex

/-- Whether edges lead from a vertex to another, one after another, or both are one vertex. -/
abbrev Reaches (table : SuccessorTable) : Nat → Nat → Prop := Relation.ReflTransGen table.Leads

/-- Whether a vertex lies on a directed cycle. -/
def OnCycle (table : SuccessorTable) (vertex : Nat) : Prop :=
  Relation.TransGen table.Leads vertex vertex

/-- Whether all edges lead to vertices of the graph. -/
def Complete (table : SuccessorTable) : Prop :=
  ∀ vertex successor, table.Leads vertex successor → successor < table.size

end SuccessorTable

namespace CycleSearch

/-- Whether a vertex has been opened. -/
def Opened (search : CycleSearch) (vertex : Nat) : Prop :=
  (search.number.getD vertex none).isSome = true

/-- The number of an opened vertex. -/
def rank (search : CycleSearch) (vertex : Nat) : Nat := (search.number.getD vertex none).getD 0

/-- The least number that a vertex is known to lead back to. -/
def low (search : CycleSearch) (vertex : Nat) : Nat := search.lowest.getD vertex 0

/-- The vertices on the path, its end first. -/
def trail (search : CycleSearch) : List Nat := search.path.map SearchFrame.vertex

/-- Whether a successor of a vertex does not remain to be looked at. -/
def Looked (search : CycleSearch) (vertex successor : Nat) : Prop :=
  ∀ frame ∈ search.path, frame.vertex = vertex → successor ∉ frame.remaining

/-- The last vertex on the path among those that were opened no later than a vertex. -/
structure Guards (search : CycleSearch) (guard vertex : Nat) : Prop where
  onTrail : guard ∈ search.trail
  before : search.rank guard ≤ search.rank vertex
  last :
    ∀ other ∈ search.trail, search.rank other ≤ search.rank vertex →
      search.rank other ≤ search.rank guard

/-- The tables of a search go together with its stack, and the stack with its path. -/
structure Tabled (table : SuccessorTable) (search : CycleSearch) : Prop where
  numberSize : search.number.size = table.size
  lowestSize : search.lowest.size = table.size
  pendingSize : search.pending.size = table.size
  onCycleSize : search.onCycle.size = table.size
  pending : ∀ vertex, search.pending.getD vertex false = true ↔ vertex ∈ search.stack
  opened : ∀ vertex ∈ search.stack, search.Opened vertex
  sorted : search.stack.Pairwise fun later earlier => search.rank earlier < search.rank later
  below : ∀ vertex, search.Opened vertex → search.rank vertex < search.next
  onStack : search.trail.Sublist search.stack

/-- What a search has found out by looking at edges, but for one that it is looking at. -/
structure Explored (table : SuccessorTable) (search : CycleSearch) (current : Option (Nat × Nat)) :
    Prop where
  remaining :
    ∀ frame ∈ search.path, ∀ successor ∈ frame.remaining, table.Leads frame.vertex successor
  looked :
    ∀ vertex, search.Opened vertex → ∀ successor, table.Leads vertex successor →
      search.Looked vertex successor → current ≠ some (vertex, successor) →
        search.Opened successor
  /-- What leads out of a closed vertex is closed. -/
  closed :
    ∀ vertex, search.Opened vertex → vertex ∉ search.stack →
      ∀ successor, table.Leads vertex successor →
        search.Opened successor ∧ successor ∉ search.stack
  cyclic :
    ∀ vertex, search.onCycle.getD vertex false = true ↔
      search.Opened vertex ∧ vertex ∉ search.stack ∧ table.OnCycle vertex

/-- How the vertices on the stack lead to each other. -/
structure Linked (table : SuccessorTable) (search : CycleSearch) (current : Option (Nat × Nat)) :
    Prop where
  down :
    ∀ guard ∈ search.trail, ∀ vertex ∈ search.stack,
      search.rank guard ≤ search.rank vertex → table.Reaches guard vertex
  up :
    ∀ vertex ∈ search.stack, ∃ guard ∈ search.trail,
      search.rank guard ≤ search.rank vertex ∧ table.Reaches vertex guard
  lowReached :
    ∀ vertex ∈ search.stack, ∃ back ∈ search.stack,
      search.rank back = search.low vertex ∧ search.low vertex ≤ search.rank vertex ∧
        table.Reaches vertex back
  lowLeast :
    ∀ vertex ∈ search.stack, ∀ successor ∈ search.stack, table.Leads vertex successor →
      search.Looked vertex successor → current ≠ some (vertex, successor) →
        ∀ guard, search.Guards guard vertex → search.low guard ≤ search.rank successor

/-- What holds between the steps of a search, and within a step but for the edge looked at. -/
structure Sound (table : SuccessorTable) (search : CycleSearch) (current : Option (Nat × Nat)) :
    Prop extends Tabled table search, Explored table search current, Linked table search current

section Tables

variable {Entry : Type}

/-- What is found in a table after one entry has been set. -/
theorem getD_setIfInBounds
    (entries : Array Entry)
    (place other : Nat)
    (entry absent : Entry)
    (inside : place < entries.size) :
    (entries.setIfInBounds place entry).getD other absent =
      if other = place then entry else entries.getD other absent := by
  rw [Array.getD_eq_getD_getElem?, Array.getElem?_setIfInBounds, Array.getD_eq_getD_getElem?]
  by_cases same : place = other
  · rw [if_pos same, if_pos inside, if_pos same.symm, Option.getD_some]
  · rw [if_neg same, if_neg (Ne.symm same)]

theorem size_foldl_setIfInBounds
    (entries : Array Entry)
    (places : List Nat)
    (entry : Entry) :
    (places.foldl (fun table place => table.setIfInBounds place entry) entries).size =
      entries.size :=
  List.foldlRecOn (motive := fun table : Array Entry => table.size = entries.size) places _ rfl
    fun _ same _ _ => Array.size_setIfInBounds.trans same

/-- What is found in a table after the entries at some places have been set. -/
theorem getD_foldl_setIfInBounds
    (entries : Array Entry)
    (places : List Nat)
    (other : Nat)
    (entry absent : Entry)
    (inside : ∀ place ∈ places, place < entries.size) :
    (places.foldl (fun table place => table.setIfInBounds place entry) entries).getD other absent =
      if other ∈ places then entry else entries.getD other absent := by
  induction places generalizing entries with
  | nil => rw [List.foldl_nil, if_neg List.not_mem_nil]
  | cons place rest inductionHypothesis =>
      have first : place < entries.size := inside place List.mem_cons_self
      have others : ∀ later ∈ rest, later < (entries.setIfInBounds place entry).size := by
        rw [Array.size_setIfInBounds]
        exact fun later member => inside later (List.mem_cons_of_mem _ member)
      rw [List.foldl_cons, inductionHypothesis _ others,
        getD_setIfInBounds entries place other entry absent first]
      by_cases isFirst : other = place <;> simp [isFirst]

end Tables

section Views

variable {search : CycleSearch} {vertex : Nat}

/-- Only vertices of the graph are opened. -/
theorem lt_of_opened
    (opened : search.Opened vertex) :
    vertex < search.number.size := by
  refine Nat.lt_of_not_le fun beyond => ?_
  rw [Opened, Array.getD_eq_getD_getElem?, Array.getElem?_eq_none beyond] at opened
  cases opened

/-- The number of an opened vertex is held in the table. -/
theorem number_of_opened
    (opened : search.Opened vertex) :
    search.number.getD vertex none = some (search.rank vertex) := by
  obtain ⟨number, isNumber⟩ := Option.isSome_iff_exists.mp opened
  rw [rank, isNumber, Option.getD_some]

end Views

namespace Sound

variable {table : SuccessorTable} {search : CycleSearch} {current : Option (Nat × Nat)}
  {vertex other : Nat}

/-- Nothing is opened before the search starts. -/
theorem start (table : SuccessorTable) : (CycleSearch.start table.size).Sound table none := by
  have unopened : ∀ vertex, ¬ (CycleSearch.start table.size).Opened vertex := by
    intro vertex
    rw [Opened, CycleSearch.start, Array.getD_eq_getD_getElem?, Array.getElem?_replicate]
    split <;> simp
  have unmarked : ∀ vertex, (Array.replicate table.size false).getD vertex false = false := by
    intro vertex
    rw [Array.getD_eq_getD_getElem?, Array.getElem?_replicate]
    split <;> rfl
  constructor
  case toTabled =>
      constructor
      case numberSize | lowestSize | pendingSize | onCycleSize => exact Array.size_replicate
      case pending =>
          intro vertex
          rw [CycleSearch.start, unmarked]
          simp
      case opened => exact fun _ member => nomatch member
      case sorted => exact .nil
      case below => exact fun vertex opened => absurd opened (unopened vertex)
      case onStack => exact .slnil
  case toExplored =>
      refine ⟨(fun _ member => nomatch member), ?_, ?_, fun vertex => ?_⟩
      · exact fun vertex opened => absurd opened (unopened vertex)
      · exact fun vertex opened => absurd opened (unopened vertex)
      · rw [CycleSearch.start, unmarked]
        exact ⟨fun marked => Bool.noConfusion marked,
          fun closed => absurd closed.1 (unopened vertex)⟩
  case toLinked => constructor <;> exact fun _ member => nomatch member

theorem lt_size
    (sound : search.Sound table current)
    (opened : search.Opened vertex) :
    vertex < table.size :=
  sound.numberSize ▸ lt_of_opened opened

/-- Vertices on the stack have different numbers. -/
theorem eq_of_rank
    (sound : search.Sound table current)
    (member : vertex ∈ search.stack)
    (otherMember : other ∈ search.stack)
    (same : search.rank vertex = search.rank other) :
    vertex = other := by
  have distinct : search.stack.Pairwise fun later earlier =>
      search.rank later ≠ search.rank earlier :=
    sound.sorted.imp fun before => Nat.ne_of_gt before
  have symmetric : Std.Symm fun later earlier => search.rank later ≠ search.rank earlier :=
    ⟨fun _ _ => Ne.symm⟩
  exact Classical.byContradiction fun different =>
    distinct.forall member otherMember different same

/-- What is reached from a closed vertex is closed. -/
theorem closed_of_reaches
    (sound : search.Sound table current)
    (opened : search.Opened vertex)
    (isClosed : vertex ∉ search.stack)
    (reaches : table.Reaches vertex other) :
    other ∉ search.stack := by
  suffices search.Opened other ∧ other ∉ search.stack from this.2
  induction reaches with
  | refl => exact ⟨opened, isClosed⟩
  | tail _ leads inductionHypothesis =>
      exact sound.closed _ inductionHypothesis.1 inductionHypothesis.2 _ leads

/-- The least number that a vertex on the stack leads back to is not above its own number. -/
theorem low_le_rank
    (sound : search.Sound table current)
    (member : vertex ∈ search.stack) :
    search.low vertex ≤ search.rank vertex := by
  obtain ⟨_, _, _, before, _⟩ := sound.lowReached vertex member
  exact before

section Head

variable {frame : SearchFrame} {path : List SearchFrame}

/-- The end of the path is on the stack. -/
theorem head_mem
    (sound : search.Sound table current)
    (isPath : search.path = frame :: path) :
    frame.vertex ∈ search.stack := by
  refine sound.onStack.mem ?_
  rw [trail, isPath]
  exact List.mem_cons_self

/-- The end of the path was opened after the rest of it. -/
theorem rank_lt_head
    (sound : search.Sound table current)
    (isPath : search.path = frame :: path)
    (member : other ∈ path.map SearchFrame.vertex) :
    search.rank other < search.rank frame.vertex := by
  have sorted := sound.sorted.sublist sound.onStack
  rw [trail, isPath, List.map_cons, List.pairwise_cons] at sorted
  exact sorted.1 other member

/-- Nothing on the path was opened after the end of it. -/
theorem rank_le_head
    (sound : search.Sound table current)
    (isPath : search.path = frame :: path)
    (onTrail : other ∈ search.trail) :
    search.rank other ≤ search.rank frame.vertex := by
  rw [trail, isPath, List.map_cons] at onTrail
  rcases List.mem_cons.mp onTrail with rfl | later
  · exact Nat.le_refl _
  · exact Nat.le_of_lt (sound.rank_lt_head isPath later)

/-- The end of the path guards what was opened no earlier. -/
theorem guards_head
    (sound : search.Sound table current)
    (isPath : search.path = frame :: path)
    (after : search.rank frame.vertex ≤ search.rank vertex) :
    search.Guards frame.vertex vertex where
  onTrail := by
    rw [trail, isPath]
    exact List.mem_cons_self
  before := after
  last := fun _ onTrail _ => sound.rank_le_head isPath onTrail

/-- What was opened no earlier than the end of the path is guarded by it alone. -/
theorem eq_head_of_guards
    (sound : search.Sound table current)
    (isPath : search.path = frame :: path)
    (after : search.rank frame.vertex ≤ search.rank vertex)
    {guard : Nat}
    (guards : search.Guards guard vertex) :
    guard = frame.vertex := by
  have head := sound.guards_head isPath after
  refine sound.eq_of_rank (sound.onStack.mem guards.onTrail) (sound.head_mem isPath) ?_
  exact Nat.le_antisymm (head.last guard guards.onTrail guards.before)
    (guards.last frame.vertex head.onTrail after)

end Head

end Sound

end CycleSearch

end EventQuery
