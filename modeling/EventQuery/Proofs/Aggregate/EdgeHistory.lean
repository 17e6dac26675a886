import EventQuery.Proofs.Aggregate.Cycles
import Mathlib.Data.List.Induction

namespace EventQuery

namespace EdgeGraph

/-!
# Histories of a graph of edges

Rows enter a graph and leave it in any order, as long as the edge of each row that leaves is held.
Then the graph counts each edge as often as it is held, and its vertices are the ends of held edges.
They stand in the order in which they came to be such ends: a vertex that was dropped and comes back
stands behind those that stayed, and the source of an edge stands before the target when one edge
brings both.
-/

/-- A turn in the history of a graph: a row enters or leaves. -/
inductive RowTurn where
  | enter (row : Row) (occasion : Occasion)
  | leave (row : Row) (occasion : Occasion)

/-- What a turn means to a graph: one edge more, one edge less, or nothing. -/
inductive Move where
  | insert (first second : Value)
  | erase (first second : Value)
  | pass

namespace RowTurn

/-- A state after a turn. -/
def apply (state : AggregateState) : RowTurn → AggregateState
  | enter row occasion => (state.enter row occasion).1
  | leave row occasion => (state.leave row occasion).1

/-- The edge of the row of a turn is moved; a row with a null end, or with a fault, has no edge. -/
def move (source target : Node) : RowTurn → Move
  | enter row occasion =>
      match AggregateState.edge source target row occasion with
      | .ok (some (first, second)) => .insert first second
      | _ => .pass
  | leave row occasion =>
      match AggregateState.edge source target row occasion with
      | .ok (some (first, second)) => .erase first second
      | _ => .pass

end RowTurn

namespace Move

/-- A graph after a move. -/
def apply (graph : EdgeGraph) : Move → EdgeGraph
  | insert first second => graph.insert first second
  | erase first second => graph.erase first second
  | pass => graph

/-- The edges that are held after a move.  Edges are told apart by the keys of their ends. -/
def hold (edges : List (Value × Value)) : Move → List (Value × Value)
  | insert first second => edges ++ [(first, second)]
  | erase first second =>
      edges.eraseP fun edge => edge.1.key = first.key ∧ edge.2.key = second.key
  | pass => edges

/-- Whether the edge that a move takes out is held. -/
def Allowed (edges : List (Value × Value)) : Move → Prop
  | erase first second => 0 < occurrences edges first.key second.key
  | _ => True

instance (edges : List (Value × Value)) : (move : Move) → Decidable (move.Allowed edges)
  | insert _ _ => .isTrue trivial
  | erase first second => inferInstanceAs (Decidable (0 < occurrences edges first.key second.key))
  | pass => .isTrue trivial

end Move

/-- Whether each edge that is taken out is held at that time, when some edges are held at first. -/
def Lawful : List (Value × Value) → List Move → Prop
  | _, [] => True
  | edges, move :: rest => move.Allowed edges ∧ Lawful (move.hold edges) rest

instance decidableLawful :
    (edges : List (Value × Value)) → (moves : List Move) → Decidable (Lawful edges moves)
  | _, [] => .isTrue trivial
  | edges, move :: rest =>
      have : Decidable (Lawful (move.hold edges) rest) := decidableLawful _ rest
      inferInstanceAs (Decidable (_ ∧ _))

/-- The graph after some moves. -/
def graphAfter (moves : List Move) : EdgeGraph := moves.foldl Move.apply .empty

/-- The edges that are held after some moves. -/
def held (moves : List Move) : List (Value × Value) := moves.foldl Move.hold []

/--
The time at which a key last came to be an end of a held edge: before the move of that time it was
none, and it has been one ever since.
-/
structure Since (moves : List Move) (key : ValueKey) (time : Nat) : Prop where
  inside : time < moves.length
  before : ¬ IsEnd (held (moves.take time)) key
  after : ∀ later, time < later → later ≤ moves.length → IsEnd (held (moves.take later)) key

/--
Whether a key came to be an end of a held edge before another one did, or both did with one edge of
which they are the source and the target.
-/
def Precedes (moves : List Move) (key other : ValueKey) : Prop :=
  ∃ time later, Since moves key time ∧ Since moves other later ∧
    (time < later ∨ time = later ∧ ∃ first second,
      moves[time]? = some (.insert first second) ∧ first.key = key ∧ second.key = other)

/-- A graph is what the edges make it that are held after some moves. -/
structure Mirrors (moves : List Move) (graph : EdgeGraph) : Prop extends Tidy graph.vertices where
  /-- Each edge is counted as often as it is held. -/
  counted :
    ∀ source target, countTo target (successorsOf source graph.vertices) =
      occurrences (held moves) source target
  /-- The vertices are the ends of held edges. -/
  ends : ∀ key, key ∈ vertexKeys graph.vertices ↔ IsEnd (held moves) key
  /-- What edges lead to are vertices. -/
  targets :
    ∀ vertex ∈ graph.vertices, ∀ key ∈ targetKeys vertex.successors,
      key ∈ vertexKeys graph.vertices
  /-- No edge is left out when the graph is searched. -/
  searched :
    graph.successorTable.map List.length =
      graph.vertices.map fun vertex => vertex.successors.length
  /-- The vertices stand in the order in which they came to be ends of held edges. -/
  ordered : (vertexKeys graph.vertices).Pairwise (Precedes moves)

/-! ## Keys of vertices -/

/-- Some keys with one more at the end, unless it is among them. -/
def withKey (key : ValueKey) (keys : List ValueKey) : List ValueKey :=
  if key ∈ keys then keys else keys ++ [key]

theorem mem_withKey
    {key other : ValueKey}
    {keys : List ValueKey}
    (member : other ∈ withKey key keys) :
    other ∈ keys ∨ other = key ∧ key ∉ keys := by
  rw [withKey] at member
  split at member
  next => exact .inl member
  next isNew =>
      exact (List.mem_append.mp member).imp_right fun isKey => ⟨List.mem_singleton.mp isKey, isNew⟩

theorem subset_withKey
    {key other : ValueKey}
    {keys : List ValueKey}
    (member : other ∈ keys) :
    other ∈ withKey key keys := by
  rw [withKey]
  split
  next => exact member
  next => exact List.mem_append_left _ member

theorem pairwise_withKey
    {relation : ValueKey → ValueKey → Prop}
    {key : ValueKey}
    {keys : List ValueKey}
    (pairwise : keys.Pairwise relation)
    (last : key ∉ keys → ∀ earlier ∈ keys, relation earlier key) :
    (withKey key keys).Pairwise relation := by
  rw [withKey]
  split
  next => exact pairwise
  next isNew =>
      refine List.pairwise_append.mpr ⟨pairwise, List.pairwise_singleton _ _, ?_⟩
      exact fun earlier member other isKey =>
        List.mem_singleton.mp isKey ▸ last isNew earlier member

section Keys

variable {graph : EdgeGraph} {value : Value} {change : Vertex → Vertex} {vertices : List Vertex}

/-- A value that is no vertex becomes the last one. -/
theorem vertexKeys_upsert
    (keeps : ∀ vertex, (change vertex).value = vertex.value) :
    vertexKeys (upsert value change vertices) = withKey value.key (vertexKeys vertices) := by
  induction vertices with
  | nil => simp [upsert, vertexKeys, withKey, keeps]
  | cons first rest inductionHypothesis =>
      rw [upsert]
      split
      next isValue => simp [vertexKeys, withKey, keeps, isValue]
      next notValue =>
          have other : value.key ≠ first.value.key := Ne.symm notValue
          simp only [vertexKeys, withKey, List.map_cons, List.mem_cons, other, false_or]
            at inductionHypothesis ⊢
          rw [inductionHypothesis]
          exact apply_ite (List.cons first.value.key) _ _ _

/-- The source of an inserted edge comes before the target. -/
theorem vertexKeys_insert
    (graph : EdgeGraph)
    (first second : Value) :
    vertexKeys (graph.insert first second).vertices =
      withKey second.key (withKey first.key (vertexKeys graph.vertices)) :=
  (vertexKeys_upsert fun _ => rfl).trans (congrArg _ (vertexKeys_upsert fun _ => rfl))

theorem vertexKeys_dropIsolated_sublist
    (graph : EdgeGraph)
    (value : Value) :
    (vertexKeys (graph.dropIsolated value).vertices).Sublist (vertexKeys graph.vertices) := by
  rw [dropIsolated]
  split
  next => exact .refl _
  next => exact List.filter_sublist.map _

/-- The vertices that stay when an edge is erased keep their order. -/
theorem vertexKeys_erase_sublist
    (graph : EdgeGraph)
    (first second : Value) :
    (vertexKeys (graph.erase first second).vertices).Sublist (vertexKeys graph.vertices) := by
  rw [erase]
  split
  next => exact .refl _
  next vertex found =>
      have isVertex : first.key ∈ vertexKeys graph.vertices := by
        have isFirst : vertex.value.key = first.key := by simpa using List.find?_some found
        exact isFirst ▸ List.mem_map_of_mem (List.mem_of_find?_eq_some found)
      let counting (vertex : Vertex) : Vertex :=
        { vertex with successors := countDown second vertex.successors }
      have keeps : ∀ vertex, (counting vertex).value = vertex.value := fun _ => rfl
      have same : vertexKeys (upsert first counting graph.vertices) = vertexKeys graph.vertices :=
        (vertexKeys_upsert keeps).trans (if_pos isVertex)
      refine (vertexKeys_dropIsolated_sublist _ _).trans ?_
      exact same ▸ vertexKeys_dropIsolated_sublist _ _

end Keys

/-! ## Held edges -/

section Holding

variable {graph : EdgeGraph} {edges others : List (Value × Value)} {first second : Value}
  {moves : List Move} {move : Move} {key other : ValueKey}

/-- The vertices of a graph are the ends of the edges that it charts. -/
theorem Charts.mem_vertexKeys_iff
    (charts : Charts graph.vertices edges []) :
    key ∈ vertexKeys graph.vertices ↔ IsEnd edges key :=
  ⟨fun isVertex => (charts.needed key isVertex).resolve_left List.not_mem_nil, charts.ends key⟩

/-- A graph charts edges in any order. -/
theorem Charts.congr
    (charts : Charts graph.vertices edges [])
    (same : ∀ source target, occurrences edges source target = occurrences others source target) :
    Charts graph.vertices others [] := by
  have sameEnds : ∀ key, IsEnd others key ↔ IsEnd edges key := by
    intro key
    simp only [isEnd_iff_occurs, same]
  exact { charts with
    counted := fun source target => (charts.counted source target).trans (same source target)
    ends := fun key isEnd => charts.ends key ((sameEnds key).mp isEnd)
    needed := fun key isVertex => (charts.needed key isVertex).imp_right (sameEnds key).mpr }

/-- An edge that is held and the edges that are held without it are the held edges. -/
theorem occurrences_hold_erase
    (isHeld : 0 < occurrences edges first.key second.key)
    (source target : ValueKey) :
    occurrences edges source target =
      occurrences ((first, second) :: Move.hold edges (.erase first second)) source target := by
  obtain ⟨edge, member, isEdge⟩ := List.countP_pos_iff.mp isHeld
  obtain ⟨taken, before, after, _, isTaken, whole, rest⟩ := List.exists_of_eraseP
    (p := fun edge => edge.1.key = first.key ∧ edge.2.key = second.key) member isEdge
  obtain ⟨sameFirst, sameSecond⟩ := of_decide_eq_true isTaken
  rw [occurrences_cons, Move.hold, rest, whole]
  simp only [occurrences, List.countP_append, List.countP_cons, sameFirst, sameSecond,
    decide_eq_true_iff]
  omega

/-- Any edge that is held is erased. -/
theorem Charts.erase_held
    (charts : Charts graph.vertices edges [])
    (isHeld : 0 < occurrences edges first.key second.key) :
    Charts (graph.erase first second).vertices (Move.hold edges (.erase first second)) [] :=
  (charts.congr (occurrences_hold_erase isHeld)).erase

theorem held_append
    (moves : List Move)
    (move : Move) :
    held (moves ++ [move]) = move.hold (held moves) :=
  List.foldl_append

theorem graphAfter_append
    (moves : List Move)
    (move : Move) :
    graphAfter (moves ++ [move]) = move.apply (graphAfter moves) :=
  List.foldl_append

/-- The ends of a new edge are ends of held edges, and so are those of before. -/
theorem isEnd_held_insert :
    IsEnd (held (moves ++ [.insert first second])) key ↔
      (first.key = key ∨ second.key = key) ∨ IsEnd (held moves) key := by
  rw [held_append]
  exact isEnd_append

theorem lawful_append :
    Lawful edges (moves ++ [move]) ↔
      Lawful edges moves ∧ move.Allowed (moves.foldl Move.hold edges) := by
  induction moves generalizing edges with
  | nil => exact and_comm
  | cons first rest inductionHypothesis =>
      rw [List.cons_append, Lawful, Lawful, inductionHypothesis, and_assoc]
      rfl

/-- The graph after lawful moves charts the edges that are held. -/
theorem charts_graphAfter
    (lawful : Lawful [] moves) :
    Charts (graphAfter moves).vertices (held moves) [] := by
  -- the induction is on the last move, which the graph and the held edges are told of last
  induction moves using List.reverseRecOn with
  | nil => exact .empty
  | append_singleton earlier move inductionHypothesis =>
      obtain ⟨lawfulEarlier, allowed⟩ := lawful_append.mp lawful
      have charts := inductionHypothesis lawfulEarlier
      rw [graphAfter_append, held_append]
      cases move with
      | insert first second => exact charts.insert
      | erase first second => exact charts.erase_held allowed
      | pass => exact charts

/-! ## The order of vertices -/

/-- Times do not depend on later moves while the key stays an end of a held edge. -/
theorem Since.append
    {time : Nat}
    (since : Since moves key time)
    (isEnd : IsEnd (held (moves ++ [move])) key) :
    Since (moves ++ [move]) key time where
  inside := since.inside.trans_le (by rw [List.length_append]; exact Nat.le_add_right _ _)
  before := by
    rw [List.take_append_of_le_length since.inside.le]
    exact since.before
  after := by
    intro later isLater within
    rw [List.length_append, List.length_singleton] at within
    rcases Nat.le_succ_iff.mp within with isEarlier | rfl
    · rw [List.take_append_of_le_length isEarlier]
      exact since.after later isLater isEarlier
    · rwa [List.take_of_length_le (List.length_append ▸ Nat.le_refl _)]

/-- A key that becomes an end of a held edge with the last move has been one since then. -/
theorem since_last
    (absent : ¬ IsEnd (held moves) key)
    (isEnd : IsEnd (held (moves ++ [move])) key) :
    Since (moves ++ [move]) key moves.length where
  inside := by
    rw [List.length_append]
    exact Nat.lt_succ_self _
  before := by
    rw [List.take_left]
    exact absent
  after := by
    intro later isLater within
    rw [List.length_append, List.length_singleton] at within
    obtain rfl : later = moves.length + 1 := Nat.le_antisymm within isLater
    rwa [List.take_of_length_le (List.length_append ▸ Nat.le_refl _)]

/-- There is one time only since which a key has been an end of a held edge. -/
theorem Since.unique
    {time later : Nat}
    (since : Since moves key time)
    (sinceToo : Since moves key later) :
    time = later := by
  rcases Nat.lt_trichotomy time later with isEarlier | same | isLater
  · exact absurd (since.after later isEarlier sinceToo.inside.le) sinceToo.before
  · exact same
  · exact absurd (sinceToo.after time isLater since.inside.le) since.before

/-- Every end of a held edge has been one since some time. -/
theorem exists_since
    (isEnd : IsEnd (held moves) key) :
    ∃ time, Since moves key time := by
  induction moves using List.reverseRecOn with
  | nil =>
      obtain ⟨_, member, _⟩ := isEnd
      cases member
  | append_singleton earlier move inductionHypothesis =>
      by_cases before : IsEnd (held earlier) key
      · obtain ⟨time, since⟩ := inductionHypothesis before
        exact ⟨time, since.append isEnd⟩
      · exact ⟨_, since_last before isEnd⟩

/-- The order of two keys does not depend on later moves while both stay ends of held edges. -/
theorem Precedes.append
    (precedes : Precedes moves key other)
    (isEnd : IsEnd (held (moves ++ [move])) key)
    (isEndToo : IsEnd (held (moves ++ [move])) other) :
    Precedes (moves ++ [move]) key other := by
  obtain ⟨time, later, since, sinceOther, order⟩ := precedes
  refine ⟨time, later, since.append isEnd, sinceOther.append isEndToo, ?_⟩
  rwa [List.getElem?_append_left since.inside]

/-- A key that becomes an end of a held edge with the last move comes behind those that stay. -/
theorem precedes_last
    (before : IsEnd (held moves) key)
    (isEnd : IsEnd (held (moves ++ [move])) key)
    (absent : ¬ IsEnd (held moves) other)
    (isEndToo : IsEnd (held (moves ++ [move])) other) :
    Precedes (moves ++ [move]) key other := by
  obtain ⟨time, since⟩ := exists_since before
  exact ⟨time, _, since.append isEnd, since_last absent isEndToo, .inl since.inside⟩

/-- Both ends of the last edge that is inserted stand in its direction when both are new. -/
theorem precedes_ends
    (absent : ¬ IsEnd (held moves) first.key)
    (absentToo : ¬ IsEnd (held moves) second.key) :
    Precedes (moves ++ [.insert first second]) first.key second.key := by
  have isFirst : IsEnd (held (moves ++ [.insert first second])) first.key :=
    isEnd_held_insert.mpr (.inl (.inl rfl))
  have isSecond : IsEnd (held (moves ++ [.insert first second])) second.key :=
    isEnd_held_insert.mpr (.inl (.inr rfl))
  exact ⟨_, _, since_last absent isFirst, since_last absentToo isSecond,
    .inr ⟨rfl, first, second, List.getElem?_concat_length, rfl, rfl⟩⟩

/-- The ends of an inserted edge that were no vertices come behind the vertices. -/
theorem pairwise_precedes_insert
    (charts : Charts graph.vertices (held moves) [])
    (ordered : (vertexKeys graph.vertices).Pairwise
      (Precedes (moves ++ [.insert first second]))) :
    (vertexKeys (graph.insert first second).vertices).Pairwise
      (Precedes (moves ++ [.insert first second])) := by
  have notEnd : ∀ {key}, key ∉ vertexKeys graph.vertices → ¬ IsEnd (held moves) key :=
    mt charts.mem_vertexKeys_iff.mpr
  have behind : ∀ {new}, first.key = new ∨ second.key = new →
      new ∉ vertexKeys graph.vertices → ∀ key ∈ vertexKeys graph.vertices,
        Precedes (moves ++ [.insert first second]) key new :=
    fun isNew absent key isVertex =>
      have isEnd := charts.mem_vertexKeys_iff.mp isVertex
      precedes_last isEnd (isEnd_held_insert.mpr (.inr isEnd)) (notEnd absent)
        (isEnd_held_insert.mpr (.inl isNew))
  rw [vertexKeys_insert]
  refine pairwise_withKey (pairwise_withKey ordered (behind (.inl rfl))) ?_
  -- the last key before the target is that of the source when both are new
  intro isNew key member
  have secondIsNew : second.key ∉ vertexKeys graph.vertices :=
    fun isVertex => isNew (subset_withKey isVertex)
  rcases mem_withKey member with isVertex | ⟨rfl, firstIsNew⟩
  · exact behind (.inr rfl) secondIsNew key isVertex
  · exact precedes_ends (notEnd firstIsNew) (notEnd secondIsNew)

/-- The vertices after lawful moves stand in the order in which they came to be. -/
theorem pairwise_precedes
    (lawful : Lawful [] moves) :
    (vertexKeys (graphAfter moves).vertices).Pairwise (Precedes moves) := by
  induction moves using List.reverseRecOn with
  | nil => exact .nil
  | append_singleton earlier move inductionHypothesis =>
      have lawfulEarlier := (lawful_append.mp lawful).1
      have charts := charts_graphAfter lawfulEarlier
      have stays : ∀ {keys : List ValueKey}, keys.Pairwise (Precedes earlier) →
          (∀ key ∈ keys, IsEnd (held (earlier ++ [move])) key) →
            keys.Pairwise (Precedes (earlier ++ [move])) :=
        fun ordered areEnds => ordered.imp_of_mem fun member memberToo precedes =>
          precedes.append (areEnds _ member) (areEnds _ memberToo)
      have ordered := inductionHypothesis lawfulEarlier
      have chartsAfter := charts_graphAfter lawful
      rw [graphAfter_append] at chartsAfter ⊢
      -- what is a vertex after the move is still an end of a held edge, and so keeps its time
      have areEnds : ∀ key ∈ vertexKeys (move.apply (graphAfter earlier)).vertices,
          IsEnd (held (earlier ++ [move])) key :=
        fun _ => chartsAfter.mem_vertexKeys_iff.mp
      cases move with
      | pass => exact stays ordered areEnds
      | erase first second =>
          exact stays (ordered.sublist (vertexKeys_erase_sublist _ first second)) areEnds
      | insert first second =>
          refine pairwise_precedes_insert charts (stays ordered fun key isVertex => ?_)
          exact isEnd_held_insert.mpr (.inr (charts.mem_vertexKeys_iff.mp isVertex))

/-- Lawful moves are mirrored by the graph after them. -/
theorem mirrors_graphAfter
    (lawful : Lawful [] moves) :
    Mirrors moves (graphAfter moves) := by
  have charts := charts_graphAfter lawful
  have ends : ∀ key, key ∈ vertexKeys (graphAfter moves).vertices ↔ IsEnd (held moves) key :=
    fun _ => charts.mem_vertexKeys_iff
  have targets : ∀ vertex ∈ (graphAfter moves).vertices, ∀ key ∈ targetKeys vertex.successors,
      key ∈ vertexKeys (graphAfter moves).vertices := by
    intro vertex member key isTarget
    obtain ⟨edge, isHeld, _, isKey⟩ := (charts.mem_targetKeys_iff member).mp isTarget
    exact charts.ends key ⟨edge, isHeld, .inr isKey⟩
  refine { charts with ends, targets, searched := ?_, ordered := pairwise_precedes lawful }
  rw [successorTable, List.map_map]
  refine List.map_congr_left fun vertex member => ?_
  refine List.filterMap_length_eq_length.mpr fun successor isSuccessor => ?_
  obtain ⟨found, isFound, isKey⟩ :=
    List.mem_map.mp (targets vertex member _ (List.mem_map_of_mem isSuccessor))
  obtain ⟨position, atPosition⟩ := List.getElem?_of_mem isFound
  exact Option.isSome_iff_exists.mpr
    ⟨position, charts.position?_eq_some_iff.mpr ⟨found, atPosition, isKey⟩⟩

end Holding

/-! ## Rows that enter and leave -/

/-- A turn moves an edge in the graph of a state. -/
theorem apply_edges
    (source target : Node)
    (graph : EdgeGraph)
    (turn : RowTurn) :
    turn.apply (.edges source target graph) =
      .edges source target ((turn.move source target).apply graph) := by
  cases turn with
  | enter row occasion =>
      rw [RowTurn.apply, RowTurn.move, AggregateState.enter]
      rcases AggregateState.edge source target row occasion with _ | _ | _ <;> rfl
  | leave row occasion =>
      rw [RowTurn.apply, RowTurn.move, AggregateState.leave]
      rcases AggregateState.edge source target row occasion with _ | _ | _ <;> rfl

theorem foldl_apply_edges
    (source target : Node)
    (graph : EdgeGraph)
    (turns : List RowTurn) :
    turns.foldl RowTurn.apply (.edges source target graph) =
      .edges source target ((turns.map (RowTurn.move source target)).foldl Move.apply graph) := by
  induction turns generalizing graph with
  | nil => rfl
  | cons turn rest inductionHypothesis =>
      rw [List.foldl_cons, apply_edges, inductionHypothesis, List.map_cons, List.foldl_cons]

/--
When each row that leaves takes out an edge that is held, the graph counts each edge as often as
rows hold it, its vertices are the ends of held edges, and they stand in the order in which they last
came to be such ends.
-/
theorem mirrors_turns
    (source target : Node)
    (turns : List RowTurn)
    (lawful : Lawful [] (turns.map (RowTurn.move source target))) :
    ∃ graph, turns.foldl RowTurn.apply (.edges source target .empty) =
        .edges source target graph ∧
      Mirrors (turns.map (RowTurn.move source target)) graph :=
  ⟨_, foldl_apply_edges source target .empty turns, mirrors_graphAfter lawful⟩

/--
Two equal edges, a loop and a row without an edge enter; the first vertex is dropped with the second
of the equal edges and comes back behind the others.
-/
def turnsOfRows : List RowTurn :=
  [.enter [.int 1, .int 2] [], .enter [.int 1, .int 2] [], .enter [.int 3, .int 3] [],
    .enter [.null, .int 4] [], .leave [.int 1, .int 2] [], .enter [.int 2, .int 3] [],
    .leave [.int 3, .int 3] [], .leave [.int 1, .int 2] [], .enter [.int 3, .int 1] []]

theorem mirrors_turnsOfRows :
    ∃ graph, turnsOfRows.foldl RowTurn.apply (.edges (.slot 0 .int) (.slot 1 .int) .empty) =
        .edges (.slot 0 .int) (.slot 1 .int) graph ∧
      Mirrors (turnsOfRows.map (RowTurn.move (.slot 0 .int) (.slot 1 .int))) graph ∧
      vertexKeys graph.vertices = [Value.int 2, .int 3, .int 1].map Value.key := by
  obtain ⟨graph, isState, mirrors⟩ :=
    mirrors_turns (.slot 0 .int) (.slot 1 .int) turnsOfRows (by decide +kernel)
  refine ⟨graph, isState, mirrors, ?_⟩
  cases isState
  decide +kernel

end EdgeGraph

end EventQuery
