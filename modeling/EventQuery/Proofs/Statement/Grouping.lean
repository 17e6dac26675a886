import EventQuery.Proofs.Aggregate.EdgeHistory
import EventQuery.Proofs.Value.Keys
import EventQuery.Statement.State

namespace EventQuery

/-!
# What one key stands for

Rows are in one group, and edges meet in one vertex, when the keys of their values are equal.  So
rows are in one group exactly when their values are equal in pairs and list the entries of their maps
in the same order, and such values are never at two vertices of a graph.
-/

/-! ## Groups -/

section Groups

variable {isEvent : Identity → Bool} {first second : GroupKey}

/-- Groups are the same when their values are equal in pairs and list entries in the same order. -/
theorem GroupKey.same_iff
    (isFirst : ∀ value ∈ first.values, value.Keyable isEvent)
    (isSecond : ∀ value ∈ second.values, value.Keyable isEvent) :
    first.same second = true ↔ first.values.Forall₂ Value.EqualInOrder second.values := by
  rw [same, beq_iff_eq, keys, keys, ← List.forall₂_eq_eq_eq, List.forall₂_map_left_iff,
    List.forall₂_map_right_iff, List.forall₂_iff_zip, List.forall₂_iff_zip]
  refine and_congr_right fun _ => forall_congr' fun left => forall_congr' fun right => ?_
  refine imp_congr_right fun member => ?_
  obtain ⟨isLeft, isRight⟩ := List.of_mem_zip member
  exact (isFirst left isLeft).key_eq_iff (isSecond right isRight)

/-- The open group of one key is that of another key exactly when the keys are the same. -/
theorem Statement.group?_eq_iff
    {statement : Statement}
    {group : OpenGroup}
    (isOpen : statement.group? first = some group) :
    statement.group? second = some group ↔ first.same second = true := by
  have isFirst := List.find?_some isOpen
  constructor
  · intro isOpenToo
    have isSecond := List.find?_some isOpenToo
    exact BEq.trans (BEq.symm isFirst) isSecond
  · intro same
    have samePredicate : (fun held : OpenGroup => held.key.same second) =
        fun held => held.key.same first :=
      funext fun held => (BEq.congr_right same).symm
    rw [← isOpen, group?, group?, samePredicate]

end Groups

/-! ## Vertices -/

namespace EdgeGraph

/-- A move never makes two vertices with one key. -/
theorem nodup_vertexKeys_apply
    {graph : EdgeGraph}
    (nodup : (vertexKeys graph.vertices).Nodup)
    (move : Move) :
    (vertexKeys (move.apply graph).vertices).Nodup := by
  have differs : ∀ {key : ValueKey} {keys : List ValueKey}, keys.Nodup → (withKey key keys).Nodup :=
    fun distinct => pairwise_withKey distinct fun isNew earlier member same =>
      isNew (same ▸ member)
  cases move with
  | insert source target =>
      rw [Move.apply, vertexKeys_insert]
      exact differs (differs nodup)
  | erase source target => exact nodup.sublist (vertexKeys_erase_sublist graph source target)
  | pass => exact nodup

/-- No two vertices of a graph have one key, whatever has entered and left. -/
theorem nodup_vertexKeys_graphAfter (moves : List Move) :
    (vertexKeys (graphAfter moves).vertices).Nodup := by
  induction moves using List.reverseRecOn with
  | nil => exact List.nodup_nil
  | append_singleton earlier move inductionHypothesis =>
      rw [graphAfter_append]
      exact nodup_vertexKeys_apply inductionHypothesis move

/-- Values of two vertices are never equal with the same order of entries. -/
theorem pairwise_vertices
    {isEvent : Identity → Bool}
    (moves : List Move) :
    (graphAfter moves).vertices.Pairwise fun vertex other =>
      vertex.value.Keyable isEvent → other.value.Keyable isEvent →
        ¬ vertex.value.EqualInOrder other.value := by
  have nodup := nodup_vertexKeys_graphAfter moves
  rw [vertexKeys, List.Nodup, List.pairwise_map] at nodup
  refine nodup.imp fun different isVertex isOther same => different ?_
  exact (isVertex.key_eq_iff isOther).mpr same

end EdgeGraph

/-! ## Keys and equality -/

/--
Values have one key exactly when they are equal and list the entries of their maps in the same order,
which they do when one of them holds no map.  So rows are in one group exactly when this is true of
their values in pairs, and values of which it is true are at one vertex of a graph.
-/
theorem keys_agree_in_order (isEvent : Identity → Bool) :
    (∀ first second : Value, first.Keyable isEvent → second.Keyable isEvent →
        (first.key = second.key ↔ first.EqualInOrder second) ∧
          (first.Mapless → (first.key = second.key ↔ first.equals second = true))) ∧
      (∀ (statement : Statement) (first second : GroupKey) (group : OpenGroup),
        (∀ value ∈ first.values, value.Keyable isEvent) →
          (∀ value ∈ second.values, value.Keyable isEvent) →
            statement.group? first = some group →
              (statement.group? second = some group ↔
                first.values.Forall₂ Value.EqualInOrder second.values)) ∧
      ∀ (source target : Node) (turns : List EdgeGraph.RowTurn) (graph : EdgeGraph),
        turns.foldl EdgeGraph.RowTurn.apply (.edges source target .empty) =
            .edges source target graph →
          graph.vertices.Pairwise fun vertex other =>
            vertex.value.Keyable isEvent → other.value.Keyable isEvent →
              ¬ vertex.value.EqualInOrder other.value := by
  refine ⟨fun first second isFirst isSecond => ⟨isFirst.key_eq_iff isSecond, ?_⟩, ?_, ?_⟩
  · intro mapless
    rw [isFirst.key_eq_iff isSecond]
    exact and_iff_left (mapless.sameOrder second)
  · intro statement first second group isFirst isSecond isOpen
    rw [Statement.group?_eq_iff isOpen]
    exact GroupKey.same_iff isFirst isSecond
  · intro source target turns graph reached
    rw [EdgeGraph.foldl_apply_edges] at reached
    cases reached
    exact EdgeGraph.pairwise_vertices _

/-- A zero with a sign or without, beside a map with its entries in some order. -/
def zeroBeside (zero : Binary64) (entries : Fields Value) : Value :=
  .array [.float zero, .map entries]

/-- Both zeros are in one group when the maps beside them list their entries in one order. -/
theorem keys_agree_in_order_zeros :
    let entries : Fields Value := [("a", .int 1), ("b", .null)]
    (zeroBeside .zero entries).EqualInOrder (zeroBeside .negativeZero entries) ∧
      (zeroBeside .zero entries).key = (zeroBeside .negativeZero entries).key := by
  intro entries
  have distinct : entries.Distinct := by
    rw [Table.Distinct]
    decide
  have each : ∀ entry ∈ entries, entry.2.Keyable fun _ => true := by
    simp only [entries, List.forall_mem_cons]
    exact ⟨.int 1, .null, nofun⟩
  have keyable : ∀ zero : Binary64, zero.isNaN = false →
      (zeroBeside zero entries).Keyable fun _ => true := by
    intro zero isNumber
    refine .array (List.forall_mem_cons.mpr ⟨.float isNumber, ?_⟩)
    exact List.forall_mem_singleton.mpr (.map distinct each)
  have equal : (zeroBeside .zero entries).EqualInOrder (zeroBeside .negativeZero entries) := by
    decide
  have agree :=
    (keys_agree_in_order fun _ => true).1 _ _ (keyable .zero rfl) (keyable .negativeZero rfl)
  exact ⟨equal, agree.1.mpr equal⟩

/-- Two maps with the same entries in different orders are equal, and are in different groups. -/
theorem not_keys_agree_in_any_order :
    let first : Value := .map [("a", .int 1), ("b", .int 2)]
    let second : Value := .map [("b", .int 2), ("a", .int 1)]
    first.equals second = true ∧ first.key ≠ second.key ∧
      GroupKey.same ⟨[first]⟩ ⟨[second]⟩ = false := by
  decide

end EventQuery
