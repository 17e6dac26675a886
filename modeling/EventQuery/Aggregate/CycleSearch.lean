namespace EventQuery

/-!
# Vertices on cycles

One depth-first search finds the vertices that lie on a directed cycle.  The search numbers the
vertices in the order in which it opens them and keeps for each the least number it is known to lead
back to.  A vertex that leads back to no earlier one closes a component: the vertices opened since
then and not yet closed lead to each other.  They lie on a cycle when there are several of them, or
when the only one has an edge to itself.
-/

/-- A directed graph: for each vertex the vertices that its edges lead to. -/
abbrev SuccessorTable := Array (List Nat)

namespace SuccessorTable

/-- The vertices that the edges of a vertex lead to. -/
def successors (table : SuccessorTable) (vertex : Nat) : List Nat := table.getD vertex []

/-- The number of edges. -/
def edgeCount (table : SuccessorTable) : Nat :=
  table.foldl (fun total successors => total + successors.length) 0

end SuccessorTable

/-- A vertex on the path of the search, with the successors still to be looked at. -/
structure SearchFrame where
  vertex : Nat
  remaining : List Nat
  deriving DecidableEq, Repr

/-- The state of the search. -/
structure CycleSearch where
  /-- The number of each vertex that has been opened. -/
  number : Array (Option Nat)
  /-- The least number that each opened vertex is known to lead back to. -/
  lowest : Array Nat
  /-- Whether each vertex is opened and not yet closed. -/
  pending : Array Bool
  /-- The vertices opened and not yet closed, the last one first. -/
  stack : List Nat
  /-- The number of the next vertex to be opened. -/
  next : Nat
  /-- Whether each closed vertex lies on a cycle. -/
  onCycle : Array Bool
  /-- The path of the search, its end first. -/
  path : List SearchFrame
  deriving Repr

namespace CycleSearch

/-- The search of a graph before it starts. -/
def start (size : Nat) : CycleSearch where
  number := Array.replicate size none
  lowest := Array.replicate size 0
  pending := Array.replicate size false
  stack := []
  next := 0
  onCycle := Array.replicate size false
  path := []

/-- Open a vertex and go on from it. -/
def openVertex (table : SuccessorTable) (search : CycleSearch) (vertex : Nat) : CycleSearch :=
  { search with
    number := search.number.setIfInBounds vertex (some search.next)
    lowest := search.lowest.setIfInBounds vertex search.next
    pending := search.pending.setIfInBounds vertex true
    stack := vertex :: search.stack
    next := search.next + 1
    path := ⟨vertex, table.successors vertex⟩ :: search.path }

/-- A vertex is known to lead back to a number. -/
def lower (search : CycleSearch) (vertex number : Nat) : CycleSearch :=
  { search with
    lowest := search.lowest.setIfInBounds vertex (min (search.lowest.getD vertex 0) number) }

/-- The vertices opened since a vertex, and with it, and those opened before it. -/
def splitThrough (vertex : Nat) : List Nat → List Nat × List Nat
  | [] => ([], [])
  | top :: rest =>
      if top = vertex then ([top], rest)
      else
        let (component, below) := splitThrough vertex rest
        (top :: component, below)

/-- Close the component that a vertex was the first to be opened of. -/
def closeComponent (table : SuccessorTable) (search : CycleSearch) (vertex : Nat) : CycleSearch :=
  let (component, below) := splitThrough vertex search.stack
  let cyclic := 1 < component.length || (table.successors vertex).contains vertex
  { search with
    stack := below
    pending := component.foldl (fun pending member => pending.setIfInBounds member false)
      search.pending
    onCycle :=
      if cyclic then
        component.foldl (fun onCycle member => onCycle.setIfInBounds member true) search.onCycle
      else search.onCycle }

/-- Leave a vertex whose successors have all been looked at. -/
def retreat (table : SuccessorTable) (search : CycleSearch) (vertex : Nat)
    (path : List SearchFrame) : CycleSearch :=
  let lowest := search.lowest.getD vertex 0
  let back := { search with path }
  let informed :=
    match path with
    | parent :: _ => back.lower parent.vertex lowest
    | [] => back
  if informed.number.getD vertex none == some lowest then closeComponent table informed vertex
  else informed

/-- Look at one successor of a vertex on the path. -/
def look (table : SuccessorTable) (search : CycleSearch) (vertex successor : Nat) : CycleSearch :=
  match search.number.getD successor none with
  | none => openVertex table search successor
  | some number =>
      if search.pending.getD successor false then search.lower vertex number else search

/-- One step of the search: look at the next successor of the last vertex on the path, or leave it. -/
def step (table : SuccessorTable) (search : CycleSearch) : CycleSearch :=
  match search.path with
  | [] => search
  | ⟨vertex, []⟩ :: path => retreat table search vertex path
  | ⟨vertex, successor :: remaining⟩ :: path =>
      look table { search with path := ⟨vertex, remaining⟩ :: path } vertex successor

/-- Take steps until the path is empty, at most as many as the fuel says. -/
def run (table : SuccessorTable) : Nat → CycleSearch → CycleSearch
  | 0, search => search
  | fuel + 1, search =>
      match search.path with
      | [] => search
      | _ :: _ => run table fuel (step table search)

/--
The number of steps that suffice for a whole search: one for each edge and two for each vertex.
-/
def enough (table : SuccessorTable) : Nat := table.edgeCount + 2 * table.size

/-- Search from a vertex unless it has been opened before. -/
def visit (table : SuccessorTable) (search : CycleSearch) (vertex : Nat) : CycleSearch :=
  match search.number.getD vertex none with
  | some _ => search
  | none => run table (enough table) (openVertex table search vertex)

/-- The search from every vertex in turn. -/
def complete (table : SuccessorTable) : CycleSearch :=
  (List.range table.size).foldl (visit table) (start table.size)

/-- For each vertex, whether it lies on a directed cycle. -/
def cyclic (table : SuccessorTable) : Array Bool := (complete table).onCycle

end CycleSearch

end EventQuery
