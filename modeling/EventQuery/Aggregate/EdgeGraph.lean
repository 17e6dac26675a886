import EventQuery.Value.Key

namespace EventQuery

/-!
# Graphs of counted edges

A directed graph whose vertices are values and whose edges are counted, so that an edge can be held
several times.  A vertex is in the graph as long as it is an end of a held edge, and the vertices
stand in the order in which they came to be.
-/

/-- A vertex with the vertices that its edges lead to, each with the number of such edges. -/
structure Vertex where
  value : Value
  successors : List (Value × Nat)
  deriving Repr, Inhabited

/-- The vertices of a graph, in order. -/
structure EdgeGraph where
  vertices : List Vertex
  deriving Repr, Inhabited

namespace EdgeGraph

/-- The graph without edges. -/
def empty : EdgeGraph := ⟨[]⟩

/-- Count one more edge to a target. -/
def countUp (target : Value) : List (Value × Nat) → List (Value × Nat)
  | [] => [(target, 1)]
  | (held, count) :: rest =>
      if held.key = target.key then (held, count + 1) :: rest
      else (held, count) :: countUp target rest

/-- Count one edge less to a target; a target without edges is dropped. -/
def countDown (target : Value) : List (Value × Nat) → List (Value × Nat)
  | [] => []
  | (held, count) :: rest =>
      if held.key = target.key then
        if count ≤ 1 then rest else (held, count - 1) :: rest
      else (held, count) :: countDown target rest

/-- Change the vertex of a value, which is put at the end first when it is not there. -/
def upsert (value : Value) (change : Vertex → Vertex) : List Vertex → List Vertex
  | [] => [change ⟨value, []⟩]
  | vertex :: rest =>
      if vertex.value.key = value.key then change vertex :: rest
      else vertex :: upsert value change rest

/-- The vertex of a value. -/
def find? (graph : EdgeGraph) (value : Value) : Option Vertex :=
  graph.vertices.find? fun vertex => vertex.value.key = value.key

/-- Whether a vertex has an edge to a value. -/
def leadsTo (vertex : Vertex) (value : Value) : Bool :=
  vertex.successors.any fun successor => successor.1.key = value.key

/-- Hold one more edge. -/
def insert (graph : EdgeGraph) (source target : Value) : EdgeGraph :=
  let counted := upsert source
    (fun vertex => { vertex with successors := countUp target vertex.successors }) graph.vertices
  ⟨upsert target id counted⟩

/-- Drop the vertex of a value that is no end of an edge. -/
def dropIsolated (graph : EdgeGraph) (value : Value) : EdgeGraph :=
  let hasOut := ((graph.find? value).map fun vertex => !vertex.successors.isEmpty).getD false
  let hasIn := graph.vertices.any fun vertex => leadsTo vertex value
  if hasOut || hasIn then graph
  else ⟨graph.vertices.filter fun vertex => vertex.value.key ≠ value.key⟩

/-- Hold one edge less.  Nothing changes when the source is no vertex. -/
def erase (graph : EdgeGraph) (source target : Value) : EdgeGraph :=
  match graph.find? source with
  | none => graph
  | some _ =>
      let counted := upsert source
        (fun vertex => { vertex with successors := countDown target vertex.successors })
        graph.vertices
      (dropIsolated ⟨counted⟩ source).dropIsolated target

/-- The position of a value among the vertices. -/
def position? (graph : EdgeGraph) (value : Value) : Option Nat :=
  graph.vertices.findIdx? fun vertex => vertex.value.key = value.key

/-- For each vertex the positions of the vertices that its edges lead to. -/
def successorTable (graph : EdgeGraph) : List (List Nat) :=
  graph.vertices.map fun vertex =>
    vertex.successors.filterMap fun successor => graph.position? successor.1

end EdgeGraph

end EventQuery
