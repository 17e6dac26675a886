import EventQuery.Pattern.StateIndex

namespace EventQuery

/-!
# Sorted indexes

An index that is sorted strictly by rank holds at most one state for each rank.  Inserting and
erasing keep it sorted, and change what it holds under one rank only.
-/

namespace Rank

theorem before_iff
    {left right : Rank} :
    left.before right = true ↔
      left.main < right.main ∨ (left.main = right.main ∧ left.created < right.created) := by
  simp [before]

theorem before_irrefl
    (rank : Rank) :
    rank.before rank = false := by
  simp [before]

theorem before_trans
    {first second third : Rank}
    (earlier : first.before second = true)
    (later : second.before third = true) :
    first.before third = true := by
  rw [before_iff] at earlier later ⊢
  omega

theorem before_of_not_before
    {left right : Rank}
    (notBefore : ¬left.before right = true)
    (different : left ≠ right) :
    right.before left = true := by
  rw [before_iff] at notBefore ⊢
  rcases left with ⟨leftMain, leftCreated⟩
  rcases right with ⟨rightMain, rightCreated⟩
  simp only [ne_eq, Rank.mk.injEq] at different
  simp only at notBefore ⊢
  omega

end Rank

namespace StateIndex

/-- Every entry stands before all entries behind it. -/
def Sorted (index : StateIndex) : Prop :=
  index.Pairwise fun first second => first.1.before second.1 = true

/-- A new rank takes the place in front of the first entry that it stands before. -/
theorem insert_of_before
    {rank : Rank}
    {state : Ticket}
    {index : StateIndex}
    (before : ∀ entry ∈ index, rank.before entry.1 = true) :
    index.insert rank state = (rank, state) :: index := by
  cases index with
  | nil =>
      rfl
  | cons entry rest =>
      rw [insert, if_pos (before entry (by simp))]

theorem insert_append
    {rank : Rank}
    {leading : StateIndex}
    (behind : ∀ entry ∈ leading, entry.1.before rank = true)
    (state : Ticket)
    (index : StateIndex) :
    insert (leading ++ index) rank state = leading ++ insert index rank state := by
  induction leading with
  | nil =>
      rfl
  | cons entry rest inductionHypothesis =>
      have first := behind entry (by simp)
      have notBefore : ¬rank.before entry.1 = true := by
        intro before
        exact absurd (Rank.before_trans first before) (by simp [Rank.before_irrefl])
      have different : rank ≠ entry.1 := by
        intro same
        rw [same, Rank.before_irrefl] at first
        cases first
      rw [List.cons_append, insert, if_neg notBefore, if_neg different,
        inductionHypothesis fun later member => behind later (by simp [member])]
      rfl

/-- After an insertion the rank holds the new state, and the other ranks hold what they held. -/
theorem mem_insert
    {index : StateIndex}
    (sorted : index.Sorted)
    (rank : Rank)
    (state : Ticket)
    (entry : Rank × Ticket) :
    entry ∈ index.insert rank state ↔
      entry = (rank, state) ∨ (entry ∈ index ∧ entry.1 ≠ rank) := by
  induction index with
  | nil =>
      simp [insert]
  | cons first rest inductionHypothesis =>
      obtain ⟨firstBefore, restSorted⟩ := List.pairwise_cons.mp sorted
      rw [insert]
      by_cases before : rank.before first.1 = true
      · have absent : ∀ other ∈ first :: rest, other.1 ≠ rank := by
          intro other member same
          have later : rank.before other.1 = true := by
            rcases List.mem_cons.mp member with isFirst | inRest
            · exact isFirst ▸ before
            · exact Rank.before_trans before (firstBefore other inRest)
          rw [same, Rank.before_irrefl] at later
          cases later
        rw [if_pos before, List.mem_cons]
        exact or_congr_right ⟨fun member => ⟨member, absent entry member⟩, And.left⟩
      · rw [if_neg before]
        by_cases same : rank = first.1
        · have absent : ∀ other ∈ rest, other.1 ≠ rank := by
            intro other member equal
            have later := firstBefore other member
            rw [equal, same, Rank.before_irrefl] at later
            cases later
          rw [if_pos same, List.mem_cons, List.mem_cons]
          constructor
          · rintro (isNew | inRest)
            · exact .inl isNew
            · exact .inr ⟨.inr inRest, absent entry inRest⟩
          · rintro (isNew | ⟨isFirst | inRest, different⟩)
            · exact .inl isNew
            · exact absurd (isFirst ▸ same.symm) different
            · exact .inr inRest
        · rw [if_neg same, List.mem_cons, inductionHypothesis restSorted, List.mem_cons]
          constructor
          · rintro (isFirst | isNew | ⟨inRest, different⟩)
            · exact .inr ⟨.inl isFirst, fun equal => same (isFirst ▸ equal).symm⟩
            · exact .inl isNew
            · exact .inr ⟨.inr inRest, different⟩
          · rintro (isNew | ⟨isFirst | inRest, different⟩)
            · exact .inr (.inl isNew)
            · exact .inl isFirst
            · exact .inr (.inr ⟨inRest, different⟩)

theorem Sorted.insert
    {index : StateIndex}
    (sorted : index.Sorted)
    (rank : Rank)
    (state : Ticket) :
    (index.insert rank state).Sorted := by
  induction index with
  | nil =>
      exact List.pairwise_singleton _ _
  | cons first rest inductionHypothesis =>
      obtain ⟨firstBefore, restSorted⟩ := List.pairwise_cons.mp sorted
      rw [StateIndex.insert]
      by_cases before : rank.before first.1 = true
      · rw [if_pos before]
        refine List.pairwise_cons.mpr ⟨?_, sorted⟩
        intro other member
        rcases List.mem_cons.mp member with isFirst | inRest
        · exact isFirst ▸ before
        · exact Rank.before_trans before (firstBefore other inRest)
      · rw [if_neg before]
        by_cases same : rank = first.1
        · rw [if_pos same]
          refine List.pairwise_cons.mpr ⟨?_, restSorted⟩
          intro other member
          exact same ▸ firstBefore other member
        · rw [if_neg same]
          refine List.pairwise_cons.mpr ⟨?_, inductionHypothesis restSorted⟩
          intro other member
          rcases (mem_insert restSorted rank state other).mp member with isNew | ⟨inRest, _⟩
          · exact isNew ▸ Rank.before_of_not_before before same
          · exact firstBefore other inRest

@[simp] theorem mem_erase
    {index : StateIndex}
    {rank : Rank}
    {entry : Rank × Ticket} :
    entry ∈ index.erase rank ↔ entry ∈ index ∧ entry.1 ≠ rank := by
  simp [erase]

theorem erase_eq_self
    {index : StateIndex}
    {rank : Rank}
    (absent : ∀ entry ∈ index, entry.1 ≠ rank) :
    index.erase rank = index :=
  List.filter_eq_self.mpr fun entry member => by simpa using absent entry member

theorem erase_append
    (front back : StateIndex)
    (rank : Rank) :
    StateIndex.erase (front ++ back) rank = front.erase rank ++ back.erase rank :=
  List.filter_append ..

theorem erase_cons_self
    (rank : Rank)
    (state : Ticket)
    (rest : StateIndex) :
    StateIndex.erase ((rank, state) :: rest) rank = rest.erase rank := by
  simp [erase]

theorem Sorted.erase
    {index : StateIndex}
    (sorted : index.Sorted)
    (rank : Rank) :
    (index.erase rank).Sorted :=
  sorted.sublist List.filter_sublist

theorem contains_iff
    {index : StateIndex}
    {rank : Rank} :
    index.contains rank = true ↔ ∃ state, (rank, state) ∈ index := by
  simp [contains]

theorem mem_upTo
    {index : StateIndex}
    {bound : Int}
    {state : Ticket} :
    state ∈ index.upTo bound ↔ ∃ rank, (rank, state) ∈ index ∧ rank.main ≤ bound := by
  simp [upTo]

end StateIndex

end EventQuery
