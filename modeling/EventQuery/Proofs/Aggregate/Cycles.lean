import EventQuery.Aggregate.Function
import EventQuery.Proofs.Aggregate.EdgeCounts
import EventQuery.Proofs.Aggregate.SearchResult

namespace EventQuery

namespace EdgeGraph

/-!
# Cycles of charted edges

A graph that charts edges tells of cycles what is true of the edges: there is a cycle when the edges
have one, and the vertices that are listed are those on cycles of the edges, each of them once.
-/

/-- Whether one of several edges leads from a key to another. -/
def Leads (edges : List (Value × Value)) (source target : ValueKey) : Prop :=
  ∃ edge ∈ edges, edge.1.key = source ∧ edge.2.key = target

/-- Whether a key lies on a directed cycle of edges. -/
def OnCycle (edges : List (Value × Value)) (key : ValueKey) : Prop :=
  Relation.TransGen (Leads edges) key key

/-- The graph as the search sees it. -/
def table (graph : EdgeGraph) : SuccessorTable := graph.successorTable.toArray

theorem size_table (graph : EdgeGraph) : graph.table.size = graph.vertices.length := by
  rw [table, List.size_toArray, successorTable, List.length_map]

namespace Charts

variable {graph : EdgeGraph} {edges : List (Value × Value)} {source target : Vertex}
  {position other : Nat}

/-- The position of a value is that of the vertex with its key. -/
theorem position?_eq_some_iff
    (charts : Charts graph.vertices edges [])
    {value : Value} :
    graph.position? value = some position ↔
      ∃ vertex, graph.vertices[position]? = some vertex ∧ vertex.value.key = value.key := by
  rw [position?, List.findIdx?_eq_some_iff_getElem]
  constructor
  · rintro ⟨inside, isKey, _⟩
    exact ⟨_, List.getElem?_eq_getElem inside, of_decide_eq_true isKey⟩
  · rintro ⟨vertex, isVertex, isKey⟩
    obtain ⟨inside, rfl⟩ := List.getElem?_eq_some_iff.mp isVertex
    refine ⟨inside, decide_eq_true isKey, fun earlier before isKeyToo => ?_⟩
    have distinct := List.pairwise_iff_getElem.mp charts.distinct earlier position
      (by rw [vertexKeys, List.length_map]; omega) (by rw [vertexKeys, List.length_map]; omega)
      before
    simp only [vertexKeys, List.getElem_map] at distinct
    exact distinct ((of_decide_eq_true isKeyToo).trans isKey.symm)

/-- A vertex counts edges to the keys that edges lead to from its own key. -/
theorem mem_targetKeys_iff
    (charts : Charts graph.vertices edges [])
    (member : source ∈ graph.vertices)
    {key : ValueKey} :
    key ∈ targetKeys source.successors ↔ Leads edges source.value.key key := by
  have isEdge : 0 < occurrences edges source.value.key key ↔ Leads edges source.value.key key := by
    simp [occurrences, Leads, List.countP_pos_iff]
  rw [← isEdge, charts.occurs_iff]
  constructor
  · exact fun isTarget => ⟨source, member, rfl, isTarget⟩
  · rintro ⟨vertex, isVertex, isSource, isTarget⟩
    rw [← charts.successorsOf_of_mem member, ← isSource, charts.successorsOf_of_mem isVertex]
    exact isTarget

/-- The search sees an edge between two positions when there is one between their vertices. -/
theorem leads_table_iff
    (charts : Charts graph.vertices edges []) :
    graph.table.Leads position other ↔
      ∃ source target, graph.vertices[position]? = some source ∧
        graph.vertices[other]? = some target ∧ Leads edges source.value.key target.value.key := by
  rw [SuccessorTable.Leads, SuccessorTable.successors, table, Array.getD_eq_getD_getElem?,
    List.getElem?_toArray, successorTable, List.getElem?_map]
  rcases isSource : graph.vertices[position]? with _ | source
  · simp
  · have member := List.mem_of_getElem? isSource
    simp only [Option.map_some, Option.getD_some, List.mem_filterMap,
      charts.position?_eq_some_iff, Option.some.injEq]
    constructor
    · rintro ⟨successor, isSuccessor, target, isTarget, isKey⟩
      refine ⟨source, target, rfl, isTarget, (charts.mem_targetKeys_iff member).mp ?_⟩
      rw [isKey]
      exact List.mem_map_of_mem isSuccessor
    · rintro ⟨_, target, rfl, isTarget, leads⟩
      obtain ⟨successor, isSuccessor, isKey⟩ :=
        List.mem_map.mp ((charts.mem_targetKeys_iff member).mpr leads)
      exact ⟨successor, isSuccessor, target, isTarget, isKey.symm⟩

theorem complete_table
    (charts : Charts graph.vertices edges []) :
    graph.table.Complete := by
  intro position other leads
  obtain ⟨_, _, _, isTarget, _⟩ := charts.leads_table_iff.mp leads
  rw [size_table]
  exact (List.getElem?_eq_some_iff.mp isTarget).1

/-- What the search sees of ways between positions are the ways between their vertices. -/
theorem transGen_table_iff
    (charts : Charts graph.vertices edges [])
    (isSource : graph.vertices[position]? = some source)
    (isTarget : graph.vertices[other]? = some target) :
    Relation.TransGen graph.table.Leads position other ↔
      Relation.TransGen (Leads edges) source.value.key target.value.key := by
  constructor
  · intro way
    induction way generalizing target with
    | single leads =>
        obtain ⟨_, _, isFirst, isLast, leads⟩ := charts.leads_table_iff.mp leads
        cases isSource.symm.trans isFirst
        cases isTarget.symm.trans isLast
        exact .single leads
    | tail _ leads inductionHypothesis =>
        obtain ⟨_, _, isMiddle, isLast, leads⟩ := charts.leads_table_iff.mp leads
        cases isTarget.symm.trans isLast
        exact (inductionHypothesis isMiddle).tail leads
  · intro way
    generalize isKey : target.value.key = key at way
    induction way generalizing other target with
    | single leads =>
        exact .single (charts.leads_table_iff.mpr
          ⟨source, target, isSource, isTarget, isKey.symm ▸ leads⟩)
    | @tail middle last _ leads inductionHypothesis =>
        -- an end of an edge is a vertex
        have isEnd : IsEnd edges middle := leads.imp fun _ edge => ⟨edge.1, .inl edge.2.1⟩
        obtain ⟨between, member, isMiddle⟩ := List.mem_map.mp (charts.ends middle isEnd)
        obtain ⟨place, atPlace⟩ := List.getElem?_of_mem member
        refine (inductionHypothesis atPlace isMiddle).tail (charts.leads_table_iff.mpr ?_)
        exact ⟨between, target, atPlace, isTarget, isMiddle.symm ▸ isKey.symm ▸ leads⟩

/-- The search marks the positions of the vertices on cycles of the edges. -/
theorem getD_cyclic_iff
    (charts : Charts graph.vertices edges [])
    (isSource : graph.vertices[position]? = some source) :
    graph.cyclic.getD position false = true ↔ OnCycle edges source.value.key := by
  have inside : position < graph.table.size := by
    rw [size_table]
    exact (List.getElem?_eq_some_iff.mp isSource).1
  exact (CycleSearch.getD_cyclic charts.complete_table inside).trans
    (charts.transGen_table_iff isSource isSource)

/-- There are marks for all vertices. -/
theorem size_cyclic
    (charts : Charts graph.vertices edges []) :
    graph.cyclic.size = graph.vertices.length :=
  (CycleSearch.size_cyclic charts.complete_table).trans graph.size_table

/-- A key on a cycle of the edges is the key of a vertex. -/
theorem exists_vertex_of_onCycle
    (charts : Charts graph.vertices edges [])
    {key : ValueKey}
    (onCycle : OnCycle edges key) :
    ∃ (position : Nat) (vertex : Vertex),
      graph.vertices[position]? = some vertex ∧ vertex.value.key = key := by
  obtain ⟨_, leads, _⟩ := Relation.TransGen.head'_iff.mp onCycle
  have isEnd : IsEnd edges key := leads.imp fun _ edge => ⟨edge.1, .inl edge.2.1⟩
  obtain ⟨vertex, member, isKey⟩ := List.mem_map.mp (charts.ends key isEnd)
  obtain ⟨position, isVertex⟩ := List.getElem?_of_mem member
  exact ⟨position, vertex, isVertex, isKey⟩

/-- The graph has a cycle when the edges have one. -/
theorem hasCycle_iff
    (charts : Charts graph.vertices edges []) :
    graph.hasCycle = true ↔ ∃ key, OnCycle edges key := by
  rw [hasCycle, Array.any_eq_true]
  constructor
  · rintro ⟨position, inside, marked⟩
    have isVertex := List.getElem?_eq_getElem (charts.size_cyclic ▸ inside)
    refine ⟨_, (charts.getD_cyclic_iff isVertex).mp ?_⟩
    rw [Array.getD_eq_getD_getElem?, Array.getElem?_eq_getElem inside]
    exact marked
  · rintro ⟨key, onCycle⟩
    obtain ⟨position, vertex, isVertex, rfl⟩ := charts.exists_vertex_of_onCycle onCycle
    have inside : position < graph.cyclic.size :=
      charts.size_cyclic.symm ▸ (List.getElem?_eq_some_iff.mp isVertex).1
    have marked := (charts.getD_cyclic_iff isVertex).mpr onCycle
    rw [Array.getD_eq_getD_getElem?, Array.getElem?_eq_getElem inside] at marked
    exact ⟨position, inside, marked⟩

/-- What is listed are the vertices on cycles of the edges. -/
theorem mem_cycleVertices_iff
    (charts : Charts graph.vertices edges [])
    {key : ValueKey} :
    key ∈ graph.cycleVertices.map Value.key ↔ OnCycle edges key := by
  have marked : ∀ {position : Nat} {vertex : Vertex}, graph.vertices[position]? = some vertex →
      (graph.cyclic.toList[position]? = some true ↔ OnCycle edges vertex.value.key) := by
    intro position vertex isVertex
    have inside : position < graph.cyclic.size :=
      charts.size_cyclic.symm ▸ (List.getElem?_eq_some_iff.mp isVertex).1
    rw [← charts.getD_cyclic_iff isVertex, Array.getElem?_toList, Array.getD_eq_getD_getElem?,
      Array.getElem?_eq_getElem inside]
    simp
  constructor
  · intro listed
    obtain ⟨value, isListed, rfl⟩ := List.mem_map.mp listed
    obtain ⟨⟨vertex, mark⟩, isMarked, rfl⟩ := List.mem_map.mp isListed
    obtain ⟨member, isTrue⟩ := List.mem_filter.mp isMarked
    obtain ⟨position, atPosition⟩ := List.getElem?_of_mem member
    obtain ⟨isVertex, isMark⟩ := List.getElem?_zip_eq_some.mp atPosition
    exact (marked isVertex).mp (isMark.trans (congrArg some isTrue))
  · intro onCycle
    obtain ⟨position, vertex, isVertex, rfl⟩ := charts.exists_vertex_of_onCycle onCycle
    have both : (graph.vertices.zip graph.cyclic.toList)[position]? = some (vertex, true) :=
      List.getElem?_zip_eq_some.mpr ⟨isVertex, (marked isVertex).mpr onCycle⟩
    exact List.mem_map_of_mem (List.mem_map.mpr
      ⟨(vertex, true), List.mem_filter.mpr ⟨List.mem_of_getElem? both, rfl⟩, rfl⟩)

/-- No vertex is listed twice. -/
theorem nodup_cycleVertices
    (charts : Charts graph.vertices edges []) :
    (graph.cycleVertices.map Value.key).Nodup := by
  have keys : (graph.vertices.zip graph.cyclic.toList).map (fun entry => entry.1.value.key) =
      vertexKeys graph.vertices := by
    have same : graph.vertices.length ≤ graph.cyclic.toList.length := by
      rw [Array.length_toList, charts.size_cyclic]
    have fromFirst : (graph.vertices.zip graph.cyclic.toList).map
        (fun entry => entry.1.value.key) =
          vertexKeys ((graph.vertices.zip graph.cyclic.toList).map Prod.fst) := by
      rw [vertexKeys, List.map_map]
      rfl
    rw [fromFirst, List.map_fst_zip same]
  refine charts.distinct.sublist ?_
  rw [← keys, cycleVertices, List.map_map]
  exact List.filter_sublist.map _

end Charts

/-- What a function of cycles answers about edges. -/
def Answers (detects : Bool) (edges : List (Value × Value)) (answer : Value) : Prop :=
  if detects then
    ∃ cyclic, answer = .bool cyclic ∧ (cyclic = true ↔ ∃ key, OnCycle edges key)
  else
    ∃ vertices : List Value, answer = (if vertices.isEmpty then .null else .array vertices) ∧
      (vertices.map Value.key).Nodup ∧ ∀ key, key ∈ vertices.map Value.key ↔ OnCycle edges key

end EdgeGraph

namespace AggregateSupplier

open EdgeGraph

variable {graph : EdgeGraph} {edges : List (Value × Value)} {source target : Node}

/-- A graph that charts edges tells whether they have a cycle. -/
theorem answers_readDetected
    (charts : Charts graph.vertices edges []) :
    Answers true edges (readDetected (.edges source target graph)) :=
  ⟨_, rfl, charts.hasCycle_iff⟩

/-- A graph that charts edges lists the vertices on their cycles. -/
theorem answers_readOutput
    (charts : Charts graph.vertices edges []) :
    Answers false edges (readOutput (.edges source target graph)) := by
  refine ⟨graph.cycleVertices, ?_, charts.nodup_cycleVertices,
    fun _ => charts.mem_cycleVertices_iff⟩
  rw [readOutput]
  cases graph.cycleVertices <;> rfl

end AggregateSupplier

end EventQuery
