import EventQuery.Aggregate.TreeShape

namespace EventQuery

/-!
# Places in a search tree

A comparison guides a search when it never points on after it has pointed back: of the values in
order the first ones lie before the place that is looked for, at most one lies at it, and all others
lie behind it.  Under such a comparison a search by way of a tree finds what looking at one value
after the other finds, whatever shape the tree has.
-/

@[simp] theorem TreeSite.shift_shift
    (site : TreeSite)
    (first second : Nat) :
    (site.shift first).shift second = site.shift (first + second) := by
  simp only [shift, Nat.add_assoc]

namespace TreeShape

section Guides

variable {α : Type}

/-- A comparison points forward along the first values only, and at one of the others at most. -/
def Guides (compareTo : α → Ordering) (values : List α) : Prop :=
  values.Pairwise fun earlier later => compareTo earlier ≠ .gt → compareTo later = .lt

variable {compareTo : α → Ordering} {front behind values : List α} {between : α}

/-- What stands before a value that is not behind the place lies before the place. -/
theorem Guides.gt_of_mem_front
    (guides : Guides compareTo (front ++ between :: behind))
    (reached : compareTo between ≠ .lt) :
    ∀ value ∈ front, compareTo value = .gt := by
  intro value member
  refine Decidable.byContradiction fun notBefore => reached ?_
  exact (List.pairwise_append.mp guides).2.2 value member between (by simp) notBefore

theorem scan_append_of_gt
    (before : ∀ value ∈ front, compareTo value = .gt) :
    scan compareTo (front ++ behind) = (scan compareTo behind).shift front.length := by
  induction front with
  | nil => rfl
  | cons first rest inductionHypothesis =>
      have isBefore := before first List.mem_cons_self
      have restBefore : ∀ value ∈ rest, compareTo value = .gt :=
        fun value member => before value (List.mem_cons_of_mem _ member)
      simp only [List.cons_append, scan, isBefore, inductionHypothesis restBefore,
        TreeSite.shift_shift, List.length_cons]

/-- A search in order ends at the first value behind the place. -/
theorem scan_append_of_lt
    (isBehind : compareTo between = .lt) :
    scan compareTo (front ++ between :: behind) = scan compareTo front := by
  induction front with
  | nil => simp only [List.nil_append, scan, isBehind]
  | cons first rest inductionHypothesis =>
      simp only [List.cons_append, scan, inductionHypothesis]

/-- Values under a guiding comparison are those before the place, maybe one at it, and the rest. -/
theorem Guides.scan_cases
    (guides : Guides compareTo values) :
    (∃ front behind, values = front ++ behind ∧ scan compareTo values = ⟨front.length, false⟩ ∧
        (∀ value ∈ front, compareTo value = .gt) ∧ ∀ value ∈ behind, compareTo value = .lt) ∨
      ∃ front between behind, values = front ++ between :: behind ∧
        scan compareTo values = ⟨front.length, true⟩ ∧ compareTo between = .eq := by
  induction values with
  | nil => exact .inl ⟨[], [], rfl, rfl, by simp, by simp⟩
  | cons first rest inductionHypothesis =>
      obtain ⟨firstGuides, restGuides⟩ := List.pairwise_cons.mp guides
      cases isFirst : compareTo first with
      | lt =>
          refine .inl ⟨[], first :: rest, rfl, by simp only [scan, isFirst, List.length_nil],
            by simp, fun value member => ?_⟩
          rcases List.mem_cons.mp member with rfl | inRest
          · exact isFirst
          · exact firstGuides value inRest (by simp [isFirst])
      | eq =>
          exact .inr ⟨[], first, rest, rfl, by simp only [scan, isFirst, List.length_nil], isFirst⟩
      | gt =>
          rcases inductionHypothesis restGuides with
            ⟨front, behind, isRest, found, before, after⟩ |
              ⟨front, between, behind, isRest, found, same⟩
          · refine .inl ⟨first :: front, behind, by rw [isRest, List.cons_append], ?_, ?_, after⟩
            · simp only [scan, isFirst, found, TreeSite.shift, List.length_cons]
            · intro value member
              rcases List.mem_cons.mp member with rfl | inFront
              · exact isFirst
              · exact before value inFront
          · refine .inr ⟨first :: front, between, behind, by rw [isRest, List.cons_append], ?_, same⟩
            simp only [scan, isFirst, found, TreeSite.shift, List.length_cons]

mutual

/-- A guided search by way of a tree finds the place that a search in order finds. -/
theorem locate_eq_scan
    {values : List α}
    (guides : Guides compareTo values) :
    (shape : TreeShape) → shape.locate compareTo values = scan compareTo values
  | leaf _ => by rw [locate]
  | branch children => by
      rw [locate]
      exact locateAmong_eq_scan guides children

/-- A guided search among children finds the place that a search in order finds. -/
theorem locateAmong_eq_scan
    {values : List α}
    (guides : Guides compareTo values) :
    (children : List TreeShape) → locateAmong compareTo children values = scan compareTo values
  | [] => by rw [locateAmong]
  | [child] => by
      rw [locateAmong]
      exact locate_eq_scan guides child
  | child :: next :: rest => by
      simp only [locateAmong]
      cases isDropped : values.drop child.size with
      | nil => exact locate_eq_scan guides child
      | cons between behind =>
          have split : values = values.take child.size ++ between :: behind := by
            rw [← isDropped, List.take_append_drop]
          have length : (values.take child.size).length = child.size := by
            refine List.length_take_of_le (Nat.le_of_not_lt fun tooFew => ?_)
            rw [List.drop_eq_nil_of_le (by omega)] at isDropped
            cases isDropped
          have guidesAll := guides
          rw [split] at guidesAll
          obtain ⟨guidesFront, guidesBehind, _⟩ := List.pairwise_append.mp guidesAll
          cases isBetween : compareTo between with
          | lt =>
              simp only [isBetween]
              rw [locate_eq_scan guidesFront child, ← scan_append_of_lt isBetween, ← split]
          | eq =>
              have before := guidesAll.gt_of_mem_front (by simp [isBetween])
              simp only [isBetween]
              rw [split, scan_append_of_gt before, length]
              simp [scan, isBetween, TreeSite.shift]
          | gt =>
              have before := guidesAll.gt_of_mem_front (by simp [isBetween])
              simp only [isBetween]
              rw [locateAmong_eq_scan (List.pairwise_cons.mp guidesBehind).2 (next :: rest)]
              have shifted :
                  scan compareTo (values.take child.size ++ between :: behind) = _ :=
                scan_append_of_gt before
              rw [← split, length] at shifted
              simp only [shifted, scan, isBetween, TreeSite.shift_shift, Nat.add_comm]

end

end Guides

end TreeShape

end EventQuery
