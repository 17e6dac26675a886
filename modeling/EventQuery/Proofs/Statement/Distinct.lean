import EventQuery.Proofs.Statement.Tied
import Mathlib.Data.List.Nodup

namespace EventQuery

namespace Statement

/-!
# Different states of a group

A row enters each of the different states of its group once.  In a statement that is tied to the
store these states have different numbers, and no state of one group has the number of one of
another, so that a state is known by its group and its place among the different ones.
-/

/-- The keys of the different states of a group, in order. -/
def distinctKeys (plan : Plan) : List StateKey :=
  plan.distinctPositions.filterMap fun position =>
    plan.aggregates[position]?.map fun aggregate => aggregate.handler.key

/-- The different states are those of aggregations with a key that no earlier one has. -/
theorem distinctKeys_eq
    (plan : Plan) :
    distinctKeys plan =
      (plan.aggregates.zipIdx.filter fun slot =>
        !(plan.aggregates.take slot.2).any fun earlier =>
          earlier.handler.key == slot.1.handler.key).map fun slot => slot.1.handler.key := by
  rw [distinctKeys, Plan.distinctPositions, List.filterMap_map, ← List.filterMap_eq_map]
  refine List.filterMap_congr fun slot member => ?_
  have atPosition := List.mem_zipIdx_iff_getElem?.mp (List.mem_filter.mp member).1
  simp [atPosition]

/-- No two of the different states have one key. -/
theorem nodup_distinctKeys (plan : Plan) : (distinctKeys plan).Nodup := by
  rw [distinctKeys_eq]
  refine List.pairwise_map.mpr (List.pairwise_filter.mpr (List.pairwise_iff_getElem.mpr ?_))
  intro first second firstIn secondIn before _ isDistinct same
  rw [List.length_zipIdx] at firstIn secondIn
  simp only [List.getElem_zipIdx, Nat.zero_add, Bool.not_eq_true', List.any_eq_false,
    List.mem_take_iff_getElem] at isDistinct same
  refine isDistinct plan.aggregates[first] ⟨first, by omega, rfl⟩ ?_
  simpa using same

/-- The key of each aggregation is that of one of the different states. -/
theorem mem_distinctKeys
    {plan : Plan}
    {aggregate : AggregateSlot}
    (member : aggregate ∈ plan.aggregates) :
    aggregate.handler.key ∈ distinctKeys plan := by
  let hasKey (other : AggregateSlot) : Bool := other.handler.key == aggregate.handler.key
  -- the first aggregation with the key has a state that no earlier one has
  let place := plan.aggregates.findIdx hasKey
  have inside : place < plan.aggregates.length :=
    List.findIdx_lt_length_of_exists ⟨aggregate, member, beq_self_eq_true _⟩
  have found : hasKey plan.aggregates[place] = true := List.findIdx_getElem
  have isKey : plan.aggregates[place].handler.key = aggregate.handler.key := eq_of_beq found
  rw [distinctKeys_eq]
  refine List.mem_map.mpr ⟨(plan.aggregates[place], place), List.mem_filter.mpr ⟨?_, ?_⟩, isKey⟩
  · exact List.mem_zipIdx_iff_getElem?.mpr (List.getElem?_eq_getElem inside)
  · rw [Bool.not_eq_true', List.any_eq_false]
    intro earlier isEarlier same
    obtain ⟨position, before, rfl⟩ := List.mem_take_iff_getElem.mp isEarlier
    have isBefore : position < plan.aggregates.findIdx hasKey :=
      Nat.lt_of_lt_of_le before (Nat.min_le_left _ _)
    have isFound : hasKey plan.aggregates[position] = true :=
      beq_iff_eq.mpr ((eq_of_beq same).trans isKey)
    cases (List.not_of_lt_findIdx isBefore).symm.trans isFound

section Found

variable {statement : Statement} {store : StateStore}

/-- The different handles of a group are found under the different keys, in order. -/
theorem found_distinctHandles
    {key : GroupKey}
    {handles : List StateHandle}
    (found : HandlesFound store statement.id key statement.plan.aggregates handles) :
    List.Forall₂ (fun stateKey handle => store.lookup statement.id key stateKey = some handle)
      (distinctKeys statement.plan) (statement.distinctHandles handles) := by
  rw [distinctKeys, distinctHandles]
  induction statement.plan.distinctPositions with
  | nil =>
      exact .nil
  | cons position rest inductionHypothesis =>
      rcases Nat.lt_or_ge position statement.plan.aggregates.length with inside | beyond
      · have insideToo : position < handles.length := found.length_eq ▸ inside
        rw [List.filterMap_cons_some (by rw [List.getElem?_eq_getElem inside, Option.map_some]),
          List.filterMap_cons_some (List.getElem?_eq_getElem insideToo)]
        exact .cons (found.get inside insideToo) inductionHypothesis
      · have beyondToo : handles.length ≤ position := found.length_eq ▸ beyond
        rw [List.filterMap_cons_none (by rw [List.getElem?_eq_none beyond, Option.map_none]),
          List.filterMap_cons_none (List.getElem?_eq_none beyondToo)]
        exact inductionHypothesis

/-- A state that is found as a different one of its group is found under its key. -/
theorem Tied.lookup_of_distinct
    (tied : Tied statement store)
    {group : OpenGroup}
    (member : group ∈ statement.groups)
    {place : Nat}
    {handle : StateHandle}
    (isHandle : (statement.distinctHandles group.handles)[place]? = some handle) :
    ∃ key, (distinctKeys statement.plan)[place]? = some key ∧
      store.lookup statement.id group.key key = some handle := by
  have found := found_distinctHandles (tied.found group member)
  obtain ⟨inside, rfl⟩ := List.getElem?_eq_some_iff.mp isHandle
  have insideKeys : place < (distinctKeys statement.plan).length := found.length_eq ▸ inside
  exact ⟨_, List.getElem?_eq_getElem insideKeys, found.get insideKeys inside⟩

/-- The state that is found under the key of an aggregation is one of the different ones. -/
theorem Tied.mem_distinctHandles
    (tied : Tied statement store)
    {group : OpenGroup}
    (member : group ∈ statement.groups)
    {aggregate : AggregateSlot}
    (isAggregate : aggregate ∈ statement.plan.aggregates)
    {handle : StateHandle}
    (isHandle : store.lookup statement.id group.key aggregate.handler.key = some handle) :
    handle ∈ statement.distinctHandles group.handles := by
  have found := found_distinctHandles (tied.found group member)
  obtain ⟨place, inside, isKey⟩ := List.mem_iff_getElem.mp (mem_distinctKeys isAggregate)
  have insideToo : place < (statement.distinctHandles group.handles).length :=
    found.length_eq ▸ inside
  have isOther := found.get inside insideToo
  rw [List.get_eq_getElem, isKey, isHandle] at isOther
  exact Option.some.inj isOther ▸ List.getElem_mem insideToo

/-- Open groups with equal keys are one group. -/
theorem Tied.eq_of_key
    (tied : Tied statement store)
    {group other : OpenGroup}
    (member : group ∈ statement.groups)
    (otherMember : other ∈ statement.groups)
    (same : (group.key == other.key) = true) :
    group = other := by
  obtain ⟨first, firstIn, rfl⟩ := List.mem_iff_getElem.mp member
  obtain ⟨second, secondIn, rfl⟩ := List.mem_iff_getElem.mp otherMember
  have distinct := List.pairwise_iff_getElem.mp tied.distinct
  rcases Nat.lt_trichotomy first second with before | rfl | after
  · cases same.symm.trans (distinct first second firstIn secondIn before)
  · rfl
  · cases (BEq.symm same).symm.trans (distinct second first secondIn firstIn after)

/-- The open group with a key is the one that is found by it. -/
theorem Tied.group?_of_key
    (tied : Tied statement store)
    {group : OpenGroup}
    (member : group ∈ statement.groups)
    {key : GroupKey}
    (same : (group.key == key) = true) :
    statement.group? key = some group := by
  rcases found : statement.group? key with _ | other
  · exact absurd same (List.find?_eq_none.mp found group member)
  · obtain ⟨otherMember, otherSame⟩ := mem_of_group? found
    rw [tied.eq_of_key member otherMember (BEq.trans same (BEq.symm otherSame))]

/-- A state is known by its group and its place among the different ones. -/
theorem Tied.eq_of_serial
    (tied : Tied statement store)
    (sound : store.Sound)
    {group other : OpenGroup}
    {place otherPlace : Nat}
    {handle otherHandle : StateHandle}
    (member : group ∈ statement.groups)
    (otherMember : other ∈ statement.groups)
    (isHandle : (statement.distinctHandles group.handles)[place]? = some handle)
    (isOther : (statement.distinctHandles other.handles)[otherPlace]? = some otherHandle)
    (same : handle.serial = otherHandle.serial) :
    group = other ∧ place = otherPlace := by
  obtain ⟨key, isKey, found⟩ := tied.lookup_of_distinct member isHandle
  obtain ⟨otherKey, isOtherKey, otherFound⟩ := tied.lookup_of_distinct otherMember isOther
  obtain ⟨_, sameGroup, rfl⟩ := sound.place_of_serial found otherFound same
  obtain ⟨inside, atPlace⟩ := List.getElem?_eq_some_iff.mp isKey
  obtain ⟨otherInside, atOther⟩ := List.getElem?_eq_some_iff.mp isOtherKey
  exact ⟨tied.eq_of_key member otherMember sameGroup,
    (List.Nodup.getElem_inj_iff (nodup_distinctKeys statement.plan)).mp
      (atPlace.trans atOther.symm)⟩

/-- Of handles with different numbers, only the one at a place has its number. -/
private theorem filter_take_of_nodup
    {handles : List StateHandle}
    (distinct : (handles.map StateHandle.serial).Nodup)
    {place : Nat}
    {handle : StateHandle}
    (isHandle : handles[place]? = some handle)
    (count : Nat) :
    ((handles.take count).filter fun other => other.serial == handle.serial) =
      if place < count then [handle] else [] := by
  induction handles generalizing place count with
  | nil =>
      simp at isHandle
  | cons first rest inductionHypothesis =>
      obtain ⟨notFirst, distinctRest⟩ := List.nodup_cons.mp distinct
      cases count with
      | zero =>
          simp
      | succ count =>
          cases place with
          | zero =>
              obtain rfl : first = handle := Option.some.inj isHandle
              have others : ((rest.take count).filter fun other =>
                  other.serial == first.serial) = [] := by
                refine List.filter_eq_nil_iff.mpr fun other member same => notFirst ?_
                rw [← eq_of_beq same]
                exact List.mem_map_of_mem (List.mem_of_mem_take member)
              rw [List.take_succ_cons, List.filter_cons_of_pos (by simp), others,
                if_pos (Nat.succ_pos count)]
          | succ place =>
              have different : first.serial ≠ handle.serial := fun same =>
                notFirst (same ▸ List.mem_map_of_mem (List.mem_of_getElem? isHandle))
              have others := inductionHypothesis distinctRest isHandle count
              simpa [different] using others

/-- Among the first different states of its group, a state is found when it is one of them. -/
theorem Tied.filter_own
    (tied : Tied statement store)
    (sound : store.Sound)
    {group : OpenGroup}
    {place : Nat}
    {handle : StateHandle}
    (member : group ∈ statement.groups)
    (isHandle : (statement.distinctHandles group.handles)[place]? = some handle)
    (count : Nat) :
    (((statement.distinctHandles group.handles).take count).filter fun other =>
        other.serial == handle.serial) =
      if place < count then [handle] else [] := by
  refine filter_take_of_nodup (List.pairwise_map.mpr (List.pairwise_iff_getElem.mpr ?_))
    isHandle count
  intro first second firstIn secondIn before same
  have equal := (tied.eq_of_serial sound member member (List.getElem?_eq_getElem firstIn)
    (List.getElem?_eq_getElem secondIn) same).2
  exact Nat.ne_of_lt before equal

/-- Among the different states of another group, a state is not found. -/
theorem Tied.filter_other
    (tied : Tied statement store)
    (sound : store.Sound)
    {group other : OpenGroup}
    {place : Nat}
    {handle : StateHandle}
    (member : group ∈ statement.groups)
    (isHandle : (statement.distinctHandles group.handles)[place]? = some handle)
    (otherMember : other ∈ statement.groups)
    (different : other ≠ group)
    (count : Nat) :
    (((statement.distinctHandles other.handles).take count).filter fun used =>
        used.serial == handle.serial) = [] := by
  refine List.filter_eq_nil_iff.mpr fun used isUsed same => different ?_
  obtain ⟨position, inside, rfl⟩ := List.mem_iff_getElem.mp (List.mem_of_mem_take isUsed)
  exact (tied.eq_of_serial sound otherMember member (List.getElem?_eq_getElem inside) isHandle
    (eq_of_beq same)).1

end Found

end Statement

end EventQuery
