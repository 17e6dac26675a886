import EventQuery.Aggregate.EdgeGraph
import Mathlib.Data.List.Nodup

namespace EventQuery

namespace EdgeGraph

/-!
# Edges that a graph counts

A graph charts a list of edges: it counts each edge as often as it is in the list, and its vertices
are the ends of edges, each of them once.  One edge more and the oldest edge less are charted when
they are inserted and erased.  Edges are told apart by the keys of their ends.
-/

/-- The number of edges that are counted to a target. -/
def countTo (target : ValueKey) (successors : List (Value × Nat)) : Nat :=
  ((successors.find? fun successor => successor.1.key = target).map Prod.snd).getD 0

/-- The keys of the vertices that edges lead to. -/
def targetKeys (successors : List (Value × Nat)) : List ValueKey :=
  successors.map fun successor => successor.1.key

/-- The keys of vertices. -/
def vertexKeys (vertices : List Vertex) : List ValueKey :=
  vertices.map fun vertex => vertex.value.key

/-- The counted edges of the vertex of a key, none when there is no such vertex. -/
def successorsOf (source : ValueKey) (vertices : List Vertex) : List (Value × Nat) :=
  ((vertices.find? fun vertex => vertex.value.key = source).map Vertex.successors).getD []

/-- Whether a key is that of an end of an edge. -/
def IsEnd (edges : List (Value × Value)) (key : ValueKey) : Prop :=
  ∃ edge ∈ edges, edge.1.key = key ∨ edge.2.key = key

/-- How often an edge is in a list. -/
def occurrences (edges : List (Value × Value)) (source target : ValueKey) : Nat :=
  edges.countP fun edge => edge.1.key = source ∧ edge.2.key = target

/-- Different vertices have different keys, and so have the targets of the edges from each. -/
structure Tidy (vertices : List Vertex) : Prop where
  distinct : (vertexKeys vertices).Nodup
  separate : ∀ vertex ∈ vertices, (targetKeys vertex.successors).Nodup
  positive : ∀ vertex ∈ vertices, ∀ successor ∈ vertex.successors, 0 < successor.2

/-- A graph charts edges, but for some keys that may be vertices without being ends of edges. -/
structure Charts (vertices : List Vertex) (edges : List (Value × Value)) (loose : List ValueKey) :
    Prop extends Tidy vertices where
  counted :
    ∀ source target, countTo target (successorsOf source vertices) =
      occurrences edges source target
  ends : ∀ key, IsEnd edges key → key ∈ vertexKeys vertices
  needed : ∀ key ∈ vertexKeys vertices, key ∈ loose ∨ IsEnd edges key

theorem Charts.empty : Charts empty.vertices [] [] where
  distinct := .nil
  separate := fun _ member => nomatch member
  positive := fun _ member => nomatch member
  counted := fun _ _ => rfl
  ends := by
    rintro key ⟨_, member, _⟩
    cases member
  needed := fun _ member => nomatch member

section Counting

variable {target : Value} {successors : List (Value × Nat)}

theorem countTo_countUp
    (key : ValueKey) :
    countTo key (countUp target successors) =
      countTo key successors + if target.key = key then 1 else 0 := by
  induction successors with
  | nil => by_cases same : target.key = key <;> simp [countTo, countUp, same]
  | cons first rest inductionHypothesis =>
      obtain ⟨held, count⟩ := first
      rw [countUp]
      by_cases isTarget : held.key = target.key
      · rw [if_pos isTarget]
        by_cases same : target.key = key <;> simp [countTo, isTarget, same]
      · rw [if_neg isTarget]
        by_cases isHeld : held.key = key
        · have other : target.key ≠ key := fun same => isTarget (isHeld.trans same.symm)
          simp [countTo, isHeld, other]
        · simpa [countTo, isHeld] using inductionHypothesis

theorem mem_targetKeys_countUp
    {key : ValueKey} :
    key ∈ targetKeys (countUp target successors) ↔
      key = target.key ∨ key ∈ targetKeys successors := by
  induction successors with
  | nil => simp [countUp, targetKeys]
  | cons first rest inductionHypothesis =>
      obtain ⟨held, count⟩ := first
      rw [countUp]
      split
      next isTarget => simp [targetKeys, isTarget]
      next =>
          simp only [targetKeys, List.map_cons, List.mem_cons] at inductionHypothesis ⊢
          rw [inductionHypothesis, or_left_comm]

theorem nodup_targetKeys_countUp
    (nodup : (targetKeys successors).Nodup) :
    (targetKeys (countUp target successors)).Nodup := by
  induction successors with
  | nil => exact List.nodup_singleton _
  | cons first rest inductionHypothesis =>
      obtain ⟨held, count⟩ := first
      obtain ⟨notInRest, nodupRest⟩ := List.nodup_cons.mp nodup
      rw [countUp]
      split
      next => exact nodup
      next notTarget =>
          refine List.nodup_cons.mpr ⟨fun member => ?_, inductionHypothesis nodupRest⟩
          exact (mem_targetKeys_countUp.mp member).elim notTarget notInRest

theorem positive_countUp
    (positive : ∀ successor ∈ successors, 0 < successor.2) :
    ∀ successor ∈ countUp target successors, 0 < successor.2 := by
  induction successors with
  | nil => exact List.forall_mem_singleton.mpr Nat.one_pos
  | cons first rest inductionHypothesis =>
      obtain ⟨held, count⟩ := first
      obtain ⟨isFirst, inRest⟩ := List.forall_mem_cons.mp positive
      rw [countUp]
      split
      next => exact List.forall_mem_cons.mpr ⟨Nat.succ_pos count, inRest⟩
      next => exact List.forall_mem_cons.mpr ⟨isFirst, inductionHypothesis inRest⟩

theorem countTo_eq_zero
    {key : ValueKey}
    (absent : key ∉ targetKeys successors) :
    countTo key successors = 0 := by
  rw [countTo, List.find?_eq_none.mpr]
  · rfl
  · intro successor member isKey
    exact absent (of_decide_eq_true isKey ▸ List.mem_map_of_mem member)

theorem countTo_countDown
    (key : ValueKey)
    (nodup : (targetKeys successors).Nodup) :
    countTo key (countDown target successors) =
      countTo key successors - if target.key = key then 1 else 0 := by
  induction successors with
  | nil => exact (Nat.zero_sub _).symm
  | cons first rest inductionHypothesis =>
      obtain ⟨held, count⟩ := first
      obtain ⟨notInRest, nodupRest⟩ := List.nodup_cons.mp nodup
      rw [countDown]
      by_cases isTarget : held.key = target.key
      · rw [if_pos isTarget]
        by_cases same : target.key = key
        · have isHeld : held.key = key := isTarget.trans same
          have noMore : countTo key rest = 0 := countTo_eq_zero (isHeld ▸ notInRest)
          have counted : countTo key ((held, count) :: rest) = count := by simp [countTo, isHeld]
          rw [if_pos same, counted]
          by_cases last : count ≤ 1
          · rw [if_pos last, noMore]
            omega
          · rw [if_neg last]
            simp [countTo, isHeld]
        · have other : held.key ≠ key := fun isKey => same (isTarget.symm.trans isKey)
          rw [if_neg same, Nat.sub_zero]
          split <;> simp [countTo, other]
      · rw [if_neg isTarget]
        by_cases isHeld : held.key = key
        · have other : target.key ≠ key := fun same => isTarget (isHeld.trans same.symm)
          simp [countTo, isHeld, other]
        · simpa [countTo, isHeld] using inductionHypothesis nodupRest

theorem targetKeys_countDown_sublist :
    (targetKeys (countDown target successors)).Sublist (targetKeys successors) := by
  induction successors with
  | nil => exact .slnil
  | cons first rest inductionHypothesis =>
      obtain ⟨held, count⟩ := first
      rw [countDown]
      split
      next =>
          split
          next => exact List.sublist_cons_self _ _
          next => exact List.Sublist.refl _
      next => exact inductionHypothesis.cons_cons _

theorem positive_countDown
    (positive : ∀ successor ∈ successors, 0 < successor.2) :
    ∀ successor ∈ countDown target successors, 0 < successor.2 := by
  induction successors with
  | nil => exact positive
  | cons first rest inductionHypothesis =>
      obtain ⟨held, count⟩ := first
      obtain ⟨isFirst, inRest⟩ := List.forall_mem_cons.mp positive
      rw [countDown]
      split
      next =>
          split
          next => exact inRest
          next several =>
              exact List.forall_mem_cons.mpr ⟨Nat.sub_pos_of_lt (Nat.lt_of_not_le several), inRest⟩
      next => exact List.forall_mem_cons.mpr ⟨isFirst, inductionHypothesis inRest⟩

end Counting

section Upserting

variable {value : Value} {change : Vertex → Vertex} {vertices : List Vertex}

/-- The vertices after one was changed are those of before and the changed one. -/
theorem mem_upsert
    {vertex : Vertex}
    (member : vertex ∈ upsert value change vertices) :
    vertex ∈ vertices ∨ vertex = change ⟨value, []⟩ ∨
      ∃ before ∈ vertices, vertex = change before := by
  induction vertices with
  | nil => exact .inr (.inl (List.mem_singleton.mp member))
  | cons first rest inductionHypothesis =>
      rw [upsert] at member
      split at member
      next =>
          rcases List.mem_cons.mp member with rfl | inRest
          · exact .inr (.inr ⟨first, List.mem_cons_self, rfl⟩)
          · exact .inl (List.mem_cons_of_mem _ inRest)
      next =>
          rcases List.mem_cons.mp member with rfl | later
          · exact .inl List.mem_cons_self
          · refine (inductionHypothesis later).imp (List.mem_cons_of_mem _) (Or.imp_right ?_)
            rintro ⟨before, inRest, rfl⟩
            exact ⟨before, List.mem_cons_of_mem _ inRest, rfl⟩

theorem mem_vertexKeys_upsert
    (keeps : ∀ vertex, (change vertex).value = vertex.value)
    {key : ValueKey} :
    key ∈ vertexKeys (upsert value change vertices) ↔
      key = value.key ∨ key ∈ vertexKeys vertices := by
  induction vertices with
  | nil => simp [upsert, vertexKeys, keeps]
  | cons first rest inductionHypothesis =>
      rw [upsert]
      split
      next isValue => simp [vertexKeys, keeps, isValue]
      next =>
          simp only [vertexKeys, List.map_cons, List.mem_cons] at inductionHypothesis ⊢
          rw [inductionHypothesis, or_left_comm]

theorem nodup_vertexKeys_upsert
    (keeps : ∀ vertex, (change vertex).value = vertex.value)
    (nodup : (vertexKeys vertices).Nodup) :
    (vertexKeys (upsert value change vertices)).Nodup := by
  induction vertices with
  | nil => exact List.nodup_singleton _
  | cons first rest inductionHypothesis =>
      obtain ⟨notInRest, nodupRest⟩ := List.nodup_cons.mp nodup
      rw [upsert]
      split
      next =>
          refine List.nodup_cons.mpr ⟨?_, nodupRest⟩
          show (change first).value.key ∉ vertexKeys rest
          rw [keeps]
          exact notInRest
      next notValue =>
          refine List.nodup_cons.mpr ⟨fun member => ?_, inductionHypothesis nodupRest⟩
          exact ((mem_vertexKeys_upsert keeps).mp member).elim notValue notInRest

/-- The edges from a vertex lead to different targets. -/
theorem Tidy.nodup_successorsOf
    (tidy : Tidy vertices)
    (source : ValueKey) :
    (targetKeys (successorsOf source vertices)).Nodup := by
  rw [successorsOf]
  rcases found : vertices.find? (fun vertex => vertex.value.key = source) with _ | vertex
  · rw [found]
    exact .nil
  · rw [found]
    exact tidy.separate vertex (List.mem_of_find?_eq_some found)

/-- Dropping a vertex drops the edges from it alone. -/
theorem successorsOf_filter
    (dropped key : ValueKey) :
    successorsOf key (vertices.filter fun vertex => vertex.value.key ≠ dropped) =
      if key = dropped then [] else successorsOf key vertices := by
  induction vertices with
  | nil => rw [List.filter_nil]; exact (ite_self _).symm
  | cons first rest inductionHypothesis =>
      by_cases isDropped : first.value.key = dropped
      · rw [List.filter_cons_of_neg (by simpa using isDropped), inductionHypothesis]
        by_cases same : key = dropped
        · rw [if_pos same, if_pos same]
        · have other : first.value.key ≠ key := fun isKey => same (isKey.symm.trans isDropped)
          simp [successorsOf, same, other]
      · rw [List.filter_cons_of_pos (by simpa using isDropped)]
        by_cases isKey : first.value.key = key
        · have other : key ≠ dropped := fun same => isDropped (isKey.trans same)
          simp [successorsOf, isKey, other]
        · simpa [successorsOf, isKey] using inductionHypothesis

/-- Vertices stay tidy when edges of one are counted anew in a tidy way. -/
theorem Tidy.upsert
    (tidy : Tidy vertices)
    (keeps : ∀ vertex, (change vertex).value = vertex.value)
    (recount : List (Value × Nat) → List (Value × Nat))
    (changes : ∀ vertex, (change vertex).successors = recount vertex.successors)
    (separate : ∀ successors, (targetKeys successors).Nodup →
      (targetKeys (recount successors)).Nodup)
    (positive : ∀ successors : List (Value × Nat), (∀ successor ∈ successors, 0 < successor.2) →
      ∀ successor ∈ recount successors, 0 < successor.2) :
    Tidy (upsert value change vertices) where
  distinct := nodup_vertexKeys_upsert keeps tidy.distinct
  separate := by
    intro vertex member
    rcases mem_upsert member with isBefore | rfl | ⟨before, isBefore, rfl⟩
    · exact tidy.separate vertex isBefore
    · exact changes _ ▸ separate [] .nil
    · exact changes _ ▸ separate _ (tidy.separate before isBefore)
  positive := by
    intro vertex member
    rcases mem_upsert member with isBefore | rfl | ⟨before, isBefore, rfl⟩
    · exact tidy.positive vertex isBefore
    · exact changes _ ▸ positive [] (fun _ absent => nomatch absent)
    · exact changes _ ▸ positive _ (tidy.positive before isBefore)

/-- Changing one vertex changes the edges from it alone. -/
theorem successorsOf_upsert
    (keeps : ∀ vertex, (change vertex).value = vertex.value)
    (recount : List (Value × Nat) → List (Value × Nat))
    (changes : ∀ vertex, (change vertex).successors = recount vertex.successors)
    (key : ValueKey) :
    successorsOf key (upsert value change vertices) =
      if value.key = key then recount (successorsOf key vertices)
      else successorsOf key vertices := by
  induction vertices with
  | nil => by_cases same : value.key = key <;> simp [successorsOf, upsert, keeps, changes, same]
  | cons first rest inductionHypothesis =>
      rw [upsert]
      by_cases isValue : first.value.key = value.key
      · rw [if_pos isValue]
        by_cases same : value.key = key <;> simp [successorsOf, keeps, changes, isValue, same]
      · rw [if_neg isValue]
        by_cases isFirst : first.value.key = key
        · have other : value.key ≠ key := fun same => isValue (isFirst.trans same.symm)
          simp [successorsOf, isFirst, other]
        · simpa [successorsOf, isFirst] using inductionHypothesis

end Upserting

section Occurring

variable {edges : List (Value × Value)} {first second : Value}

theorem occurrences_cons
    (source target : ValueKey) :
    occurrences ((first, second) :: edges) source target =
      occurrences edges source target +
        if first.key = source ∧ second.key = target then 1 else 0 := by
  rw [occurrences, List.countP_cons]
  simp [occurrences]

theorem occurrences_append
    (source target : ValueKey) :
    occurrences (edges ++ [(first, second)]) source target =
      occurrences edges source target +
        if first.key = source ∧ second.key = target then 1 else 0 := by
  rw [occurrences, List.countP_append, List.countP_singleton]
  simp [occurrences]

theorem isEnd_cons
    {key : ValueKey} :
    IsEnd ((first, second) :: edges) key ↔
      (first.key = key ∨ second.key = key) ∨ IsEnd edges key := by
  simp [IsEnd]

theorem isEnd_append
    {key : ValueKey} :
    IsEnd (edges ++ [(first, second)]) key ↔
      (first.key = key ∨ second.key = key) ∨ IsEnd edges key := by
  simp [IsEnd, or_and_right, exists_or, or_comm]

/-- The ends of edges are those of what occurs. -/
theorem isEnd_iff_occurs
    {key : ValueKey} :
    IsEnd edges key ↔
      (∃ target, 0 < occurrences edges key target) ∨
        ∃ source, 0 < occurrences edges source key := by
  simp only [IsEnd, occurrences, List.countP_pos_iff, decide_eq_true_iff]
  constructor
  · rintro ⟨edge, member, isSource | isTarget⟩
    · exact .inl ⟨edge.2.key, edge, member, isSource, rfl⟩
    · exact .inr ⟨edge.1.key, edge, member, rfl, isTarget⟩
  · rintro (⟨_, edge, member, isSource, _⟩ | ⟨_, edge, member, _, isTarget⟩)
    · exact ⟨edge, member, .inl isSource⟩
    · exact ⟨edge, member, .inr isTarget⟩

end Occurring

namespace Charts

variable {graph : EdgeGraph} {vertices : List Vertex} {edges : List (Value × Value)}
  {loose : List ValueKey} {first second : Value}

/-- A vertex that is held has its own edges. -/
theorem successorsOf_of_mem
    (charts : Charts vertices edges loose)
    {vertex : Vertex}
    (member : vertex ∈ vertices) :
    successorsOf vertex.value.key vertices = vertex.successors := by
  have distinct := charts.distinct
  rw [successorsOf]
  rcases found : vertices.find? (fun other => other.value.key = vertex.value.key) with _ | other
  · exact absurd (decide_eq_true rfl) (List.find?_eq_none.mp found vertex member)
  · have same : other.value.key = vertex.value.key := by simpa using List.find?_some found
    rw [found, List.inj_on_of_nodup_map distinct (List.mem_of_find?_eq_some found) member same]
    rfl

/-- An edge occurs when it is counted at the vertex that it leads from. -/
theorem occurs_iff
    (charts : Charts vertices edges loose)
    {source target : ValueKey} :
    0 < occurrences edges source target ↔
      ∃ vertex ∈ vertices, vertex.value.key = source ∧ target ∈ targetKeys vertex.successors := by
  rw [← charts.counted]
  constructor
  · intro counted
    rcases found : vertices.find? (fun vertex => vertex.value.key = source) with _ | vertex
    · rw [successorsOf, found] at counted
      exact absurd counted (Nat.lt_irrefl 0)
    · rw [successorsOf, found] at counted
      refine ⟨vertex, List.mem_of_find?_eq_some found, by simpa using List.find?_some found, ?_⟩
      refine Decidable.not_not.mp fun absent => ?_
      rw [Option.map_some, Option.getD_some, countTo_eq_zero absent] at counted
      exact Nat.lt_irrefl 0 counted
  · rintro ⟨vertex, member, rfl, isTarget⟩
    rw [charts.successorsOf_of_mem member, countTo]
    obtain ⟨successor, isSuccessor, isKey⟩ := List.mem_map.mp isTarget
    rcases found : vertex.successors.find? (fun other => other.1.key = target) with _ | other
    · exact absurd (decide_eq_true isKey) (List.find?_eq_none.mp found successor isSuccessor)
    · rw [found]
      exact charts.positive vertex member other (List.mem_of_find?_eq_some found)

/-- An inserted edge is charted behind the others. -/
theorem insert
    (charts : Charts graph.vertices edges []) :
    Charts (graph.insert first second).vertices (edges ++ [(first, second)]) [] := by
  let counting (vertex : Vertex) : Vertex :=
    { vertex with successors := countUp second vertex.successors }
  have keeps : ∀ vertex, (counting vertex).value = vertex.value := fun _ => rfl
  have keepsAll : ∀ vertex : Vertex, (id vertex).value = vertex.value := fun _ => rfl
  have counted : Tidy (upsert first counting graph.vertices) :=
    charts.toTidy.upsert keeps (countUp second) (fun _ => rfl) (fun _ => nodup_targetKeys_countUp)
      fun _ => positive_countUp
  constructor
  case toTidy => exact counted.upsert keepsAll id (fun _ => rfl) (fun _ => id) fun _ => id
  case counted =>
      intro source target
      have same : successorsOf source (graph.insert first second).vertices =
          successorsOf source (upsert first counting graph.vertices) :=
        (successorsOf_upsert keepsAll id (fun _ => rfl) source).trans (ite_self _)
      rw [occurrences_append, ← charts.counted, same,
        successorsOf_upsert keeps (countUp second) (fun _ => rfl)]
      by_cases isSource : first.key = source
      · simp only [isSource, if_true, countTo_countUp, true_and]
      · simp only [isSource, if_false, false_and, Nat.add_zero]
  case ends =>
      intro key isEnd
      rw [isEnd_append] at isEnd
      refine (mem_vertexKeys_upsert keepsAll).mpr ?_
      rw [mem_vertexKeys_upsert keeps]
      rcases isEnd with (rfl | rfl) | before
      · exact .inr (.inl rfl)
      · exact .inl rfl
      · exact .inr (.inr (charts.ends key before))
  case needed =>
      intro key isVertex
      rw [isEnd_append]
      refine .inr ?_
      rcases (mem_vertexKeys_upsert keepsAll).mp isVertex with rfl | counted
      · exact .inl (.inr rfl)
      · rcases (mem_vertexKeys_upsert keeps).mp counted with rfl | before
        · exact .inl (.inl rfl)
        · exact .inr ((charts.needed key before).resolve_left List.not_mem_nil)

/-- A vertex is asked for edges from it and to it, which it has when its key is an end of one. -/
theorem isEnd_iff
    (charts : Charts graph.vertices edges loose)
    (value : Value) :
    (((graph.find? value).map fun vertex => !vertex.successors.isEmpty).getD false ||
        graph.vertices.any fun vertex => leadsTo vertex value) = true ↔
      IsEnd edges value.key := by
  have out : ((graph.find? value).map fun vertex => !vertex.successors.isEmpty).getD false = true ↔
      ∃ target, 0 < occurrences edges value.key target := by
    simp only [charts.occurs_iff]
    constructor
    · intro hasOut
      rcases found : graph.find? value with _ | vertex
      · simp [found] at hasOut
      · have isValue : vertex.value.key = value.key := by simpa using List.find?_some found
        rcases edgesOut : vertex.successors with _ | ⟨successor, rest⟩
        · simp [found, edgesOut] at hasOut
        · refine ⟨successor.1.key, vertex, List.mem_of_find?_eq_some found, isValue, ?_⟩
          rw [edgesOut]
          exact List.mem_cons_self
    · rintro ⟨target, vertex, member, isValue, isTarget⟩
      have mine := charts.successorsOf_of_mem member
      rw [isValue, successorsOf] at mine
      rcases found : graph.find? value with _ | other
      · exact absurd (decide_eq_true isValue) (List.find?_eq_none.mp found vertex member)
      · rw [find?] at found
        rw [found, Option.map_some, Option.getD_some] at mine
        rw [Option.map_some, Option.getD_some, mine]
        rcases edgesOut : vertex.successors with _ | _
        · rw [edgesOut] at isTarget
          cases isTarget
        · rfl
  have into : (graph.vertices.any fun vertex => leadsTo vertex value) = true ↔
      ∃ source, 0 < occurrences edges source value.key := by
    simp only [charts.occurs_iff, List.any_eq_true, leadsTo, targetKeys, List.mem_map,
      decide_eq_true_iff]
    constructor
    · rintro ⟨vertex, member, leads⟩
      exact ⟨_, vertex, member, rfl, leads⟩
    · rintro ⟨_, vertex, member, _, leads⟩
      exact ⟨vertex, member, leads⟩
  rw [Bool.or_eq_true, out, into, isEnd_iff_occurs]

/-- A vertex that is no end of an edge is dropped. -/
theorem dropIsolated
    {value : Value}
    (charts : Charts graph.vertices edges (value.key :: loose)) :
    Charts (graph.dropIsolated value).vertices edges loose := by
  have isEnd := charts.isEnd_iff value
  rw [EdgeGraph.dropIsolated]
  split
  next kept =>
      refine { charts with needed := fun key isVertex => ?_ }
      rcases charts.needed key isVertex with isLoose | isEndToo
      · rcases List.mem_cons.mp isLoose with rfl | inRest
        · exact .inr (isEnd.mp kept)
        · exact .inl inRest
      · exact .inr isEndToo
  next dropped =>
      have notEnd : ¬ IsEnd edges value.key := mt isEnd.mpr dropped
      have isKept : ∀ {key}, key ∈ vertexKeys
          (graph.vertices.filter fun vertex => vertex.value.key ≠ value.key) ↔
            key ∈ vertexKeys graph.vertices ∧ key ≠ value.key := by
        intro key
        simp only [vertexKeys, List.mem_map, List.mem_filter, decide_eq_true_iff]
        constructor
        · rintro ⟨vertex, ⟨member, different⟩, rfl⟩
          exact ⟨⟨vertex, member, rfl⟩, different⟩
        · rintro ⟨⟨vertex, member, rfl⟩, different⟩
          exact ⟨vertex, ⟨member, different⟩, rfl⟩
      constructor
      case toTidy =>
          exact {
            distinct := charts.distinct.sublist (List.filter_sublist.map _)
            separate := fun vertex member => charts.separate vertex (List.mem_of_mem_filter member)
            positive := fun vertex member =>
              charts.positive vertex (List.mem_of_mem_filter member) }
      case counted =>
          intro source target
          rw [successorsOf_filter]
          split
          next isValue =>
              refine (Nat.eq_zero_of_not_pos fun occurs => notEnd ?_).symm
              exact isEnd_iff_occurs.mpr (.inl ⟨target, isValue ▸ occurs⟩)
          next => exact charts.counted source target
      case ends =>
          intro key isEndToo
          refine isKept.mpr ⟨charts.ends key isEndToo, ?_⟩
          rintro rfl
          exact notEnd isEndToo
      case needed =>
          intro key isVertex
          obtain ⟨before, different⟩ := isKept.mp isVertex
          exact (charts.needed key before).imp_left fun isLoose =>
            (List.mem_cons.mp isLoose).resolve_left different

/-- The first edge that is charted is erased. -/
theorem erase
    (charts : Charts graph.vertices ((first, second) :: edges) []) :
    Charts (graph.erase first second).vertices edges [] := by
  let counting (vertex : Vertex) : Vertex :=
    { vertex with successors := countDown second vertex.successors }
  have keeps : ∀ vertex, (counting vertex).value = vertex.value := fun _ => rfl
  have counted : Charts (EdgeGraph.mk (upsert first counting graph.vertices)).vertices edges
      [first.key, second.key] := by
    constructor
    case toTidy =>
        exact charts.toTidy.upsert keeps (countDown second) (fun _ => rfl)
          (fun _ nodup => nodup.sublist targetKeys_countDown_sublist) fun _ => positive_countDown
    case counted =>
        intro source target
        have before := charts.counted source target
        rw [occurrences_cons] at before
        rw [successorsOf_upsert keeps (countDown second) (fun _ => rfl)]
        by_cases isSource : first.key = source
        · have nodup := charts.nodup_successorsOf source
          simp only [isSource, if_true, true_and] at before ⊢
          rw [countTo_countDown _ nodup, before, Nat.add_sub_cancel]
        · simpa only [isSource, if_false, false_and, Nat.add_zero] using before
    case ends =>
        intro key isEnd
        have before := charts.ends key (isEnd_cons.mpr (.inr isEnd))
        exact (mem_vertexKeys_upsert keeps).mpr (.inr before)
    case needed =>
        intro key isVertex
        rcases (mem_vertexKeys_upsert keeps).mp isVertex with rfl | before
        · exact .inl List.mem_cons_self
        · rcases isEnd_cons.mp ((charts.needed key before).resolve_left List.not_mem_nil) with
            (rfl | rfl) | isEnd
          · exact .inl List.mem_cons_self
          · exact .inl (List.mem_cons_of_mem _ List.mem_cons_self)
          · exact .inr isEnd
  rw [EdgeGraph.erase]
  split
  next absent =>
      have isVertex := charts.ends first.key ⟨_, List.mem_cons_self, .inl rfl⟩
      obtain ⟨vertex, member, isFirst⟩ := List.mem_map.mp isVertex
      exact absurd (decide_eq_true isFirst) (List.find?_eq_none.mp absent vertex member)
  next => exact counted.dropIsolated.dropIsolated

end Charts

end EdgeGraph

end EventQuery
