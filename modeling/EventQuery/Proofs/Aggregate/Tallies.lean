import EventQuery.Aggregate.ExtremeSet
import EventQuery.Proofs.Aggregate.Placement

namespace EventQuery.ExtremeSet

/-!
# Tallies of values

Where the order of values is total, the counts of a set tell of every value how many values at its
place of the order were put in and not taken out again, whatever was put in and taken out before.
Values at one place share an entry, which keeps the value that was put in first.
-/

/-- The order of the values of a kind is total. -/
structure Orderly (kind : Value → Prop) : Prop where
  swap : ∀ {left right}, kind left → kind right → order right left = (order left right).swap
  trans : ∀ {first second third}, kind first → kind second → kind third →
    (order first second).isLE → (order second third).isLE → (order first third).isLE

namespace Orderly

variable {kind : Value → Prop} {left right first second third : Value}

/-- On the values of the kind alone the order has the laws of a comparison. -/
private theorem transCmp
    (orderly : Orderly kind) :
    Std.TransCmp fun left right : { value // kind value } => order left.1 right.1 where
  eq_swap {left right} := orderly.swap right.2 left.2
  isLE_trans {first second third} := orderly.trans first.2 second.2 third.2

theorem refl
    (orderly : Orderly kind)
    (isLeft : kind left) :
    order left left = .eq := by
  have turned := orderly.swap isLeft isLeft
  cases compared : order left left <;> rw [compared] at turned <;> first | rfl | cases turned

theorem lt_trans
    (orderly : Orderly kind)
    (isFirst : kind first)
    (isSecond : kind second)
    (isThird : kind third) :
    order first second = .lt → order second third = .lt → order first third = .lt :=
  @Std.TransCmp.lt_trans _ _ orderly.transCmp ⟨first, isFirst⟩ ⟨second, isSecond⟩ ⟨third, isThird⟩

/-- Values at one place compare alike with every other value. -/
theorem congr_left
    (orderly : Orderly kind)
    (isFirst : kind first)
    (isSecond : kind second)
    (isThird : kind third) :
    order first second = .eq → order first third = order second third :=
  @Std.TransCmp.congr_left _ _ orderly.transCmp ⟨first, isFirst⟩ ⟨second, isSecond⟩
    ⟨third, isThird⟩

theorem congr_right
    (orderly : Orderly kind)
    (isFirst : kind first)
    (isSecond : kind second)
    (isThird : kind third) :
    order second third = .eq → order first second = order first third :=
  @Std.TransCmp.congr_right _ _ orderly.transCmp ⟨first, isFirst⟩ ⟨second, isSecond⟩
    ⟨third, isThird⟩

theorem symm
    (orderly : Orderly kind)
    (isLeft : kind left)
    (isRight : kind right)
    (same : order left right = .eq) :
    order right left = .eq := by
  rw [orderly.swap isLeft isRight, same]
  rfl

theorem gt_iff_lt
    (orderly : Orderly kind)
    (isLeft : kind left)
    (isRight : kind right) :
    order left right = .gt ↔ order right left = .lt := by
  rw [orderly.swap isLeft isRight]
  cases order left right <;> simp

end Orderly

/-! ## Counts in order -/

private theorem insertIdx_length_append
    {Item : Type}
    (front behind : List Item)
    (item : Item) :
    (front ++ behind).insertIdx front.length item = front ++ item :: behind := by
  induction front with
  | nil => rfl
  | cons first rest inductionHypothesis =>
      simp only [List.cons_append, List.length_cons, List.insertIdx_succ_cons, inductionHypothesis]

private theorem modify_length_append
    {Item : Type}
    (front behind : List Item)
    (item : Item)
    (change : Item → Item) :
    (front ++ item :: behind).modify front.length change = front ++ change item :: behind := by
  induction front with
  | nil => rfl
  | cons first rest inductionHypothesis =>
      simp only [List.cons_append, List.length_cons, List.modify_succ_cons, inductionHypothesis]

private theorem mem_middle
    {Item : Type}
    {front behind : List Item}
    {item other : Item} :
    other ∈ front ++ item :: behind ↔ other = item ∨ other ∈ front ++ behind := by
  rw [List.mem_append, List.mem_cons, List.mem_append, or_left_comm]

/-- Counts of values of a kind stand in strict order. -/
structure Arranged (kind : Value → Prop) (counts : List (Value × Nat)) : Prop where
  inOrder : counts.Pairwise fun earlier later => order earlier.1 later.1 = .lt
  positive : ∀ entry ∈ counts, 0 < entry.2
  ofKind : ∀ entry ∈ counts, kind entry.1

namespace Arranged

variable {kind : Value → Prop} {front behind : List (Value × Nat)} {entry : Value × Nat}
  {value : Value} {count other : Nat} {set : ExtremeSet}

/-- A value that stands between the others is counted once. -/
theorem put
    (arranged : Arranged kind (front ++ behind))
    (isKind : kind value)
    (before : ∀ entry ∈ front, order entry.1 value = .lt)
    (after : ∀ entry ∈ behind, order value entry.1 = .lt) :
    Arranged kind (front ++ (value, 1) :: behind) where
  inOrder := by
    obtain ⟨inFront, inBehind, across⟩ := List.pairwise_append.mp arranged.inOrder
    refine List.pairwise_append.mpr ⟨inFront, List.pairwise_cons.mpr ⟨after, inBehind⟩, ?_⟩
    intro earlier isEarlier later isLater
    rcases List.mem_cons.mp isLater with rfl | isLater
    · exact before earlier isEarlier
    · exact across earlier isEarlier later isLater
  positive := List.forall_mem_append.mpr
    ⟨fun entry member => arranged.positive entry (List.mem_append_left _ member),
      List.forall_mem_cons.mpr
        ⟨Nat.one_pos, fun entry member => arranged.positive entry (List.mem_append_right _ member)⟩⟩
  ofKind := List.forall_mem_append.mpr
    ⟨fun entry member => arranged.ofKind entry (List.mem_append_left _ member),
      List.forall_mem_cons.mpr
        ⟨isKind, fun entry member => arranged.ofKind entry (List.mem_append_right _ member)⟩⟩

/-- The other counts stay in order when an entry is taken out. -/
theorem remove
    (arranged : Arranged kind (front ++ entry :: behind)) :
    Arranged kind (front ++ behind) where
  inOrder := arranged.inOrder.sublist ((List.sublist_cons_self _ _).append_left front)
  positive entry member :=
    arranged.positive entry (((List.sublist_cons_self _ _).append_left front).subset member)
  ofKind entry member :=
    arranged.ofKind entry (((List.sublist_cons_self _ _).append_left front).subset member)

/-- An entry may count its value otherwise. -/
theorem recount
    (arranged : Arranged kind (front ++ (value, count) :: behind))
    (positive : 0 < other) :
    Arranged kind (front ++ (value, other) :: behind) := by
  obtain ⟨inOrder, allPositive, ofKind⟩ := arranged
  refine ⟨?_, ?_, ?_⟩
  · simpa only [List.pairwise_append, List.pairwise_cons, List.forall_mem_cons] using inOrder
  · rw [List.forall_mem_append, List.forall_mem_cons] at allPositive ⊢
    exact ⟨allPositive.1, positive, allPositive.2.2⟩
  · simpa only [List.forall_mem_append, List.forall_mem_cons] using ofKind

/-- The order in which values are counted guides the search for one more. -/
theorem guides
    {counts : List (Value × Nat)}
    (arranged : Arranged kind counts)
    (orderly : Orderly kind)
    (isKind : kind value) :
    TreeShape.Guides (fun held => order value held.1) counts := by
  refine arranged.inOrder.imp_of_mem fun {earlier later} isEarlier isLater before notBefore => ?_
  have ofEarlier := arranged.ofKind earlier isEarlier
  have ofLater := arranged.ofKind later isLater
  cases compared : order value earlier.1 with
  | lt => exact orderly.lt_trans isKind ofEarlier ofLater compared before
  | eq => exact (orderly.congr_left isKind ofEarlier ofLater compared).trans before
  | gt => exact absurd compared notBefore

/-- A value is looked for where it would stand, and found where a value at its place is counted. -/
theorem locate_cases
    (arranged : Arranged kind set.counts)
    (orderly : Orderly kind)
    (isKind : kind value) :
    (∃ front behind, set.counts = front ++ behind ∧ set.locate value = ⟨front.length, false⟩ ∧
        (∀ entry ∈ front, order entry.1 value = .lt) ∧
          ∀ entry ∈ behind, order value entry.1 = .lt) ∨
      ∃ front held count behind, set.counts = front ++ (held, count) :: behind ∧
        set.locate value = ⟨front.length, true⟩ ∧ order value held = .eq := by
  have guides := arranged.guides orderly isKind
  rw [locate, TreeShape.locate_eq_scan guides]
  rcases guides.scan_cases with
    ⟨front, behind, isCounts, isSite, before, after⟩ |
      ⟨front, ⟨held, count⟩, behind, isCounts, isSite, same⟩
  · refine .inl ⟨front, behind, isCounts, isSite, fun entry member => ?_, after⟩
    have isEntry : kind entry.1 := arranged.ofKind entry (by simp [isCounts, member])
    exact (orderly.gt_iff_lt isKind isEntry).mp (before entry member)
  · exact .inr ⟨front, held, count, behind, isCounts, isSite, same⟩

/-- A value that would stand between the others is at the place of none of them. -/
theorem apart_of_between
    (arranged : Arranged kind (front ++ behind))
    (orderly : Orderly kind)
    (isKind : kind value)
    (before : ∀ entry ∈ front, order entry.1 value = .lt)
    (after : ∀ entry ∈ behind, order value entry.1 = .lt) :
    ∀ entry ∈ front ++ behind, order value entry.1 ≠ .eq := by
  intro entry member
  have isEntry := arranged.ofKind entry member
  rcases List.mem_append.mp member with inFront | inBehind
  · rw [(orderly.gt_iff_lt isKind isEntry).mpr (before entry inFront)]
    decide
  · rw [after entry inBehind]
    decide

/-- No two entries are at one place. -/
theorem apart_of_entry
    (arranged : Arranged kind (front ++ entry :: behind))
    (orderly : Orderly kind) :
    ∀ other ∈ front ++ behind, order entry.1 other.1 ≠ .eq := by
  obtain ⟨_, inBehind, across⟩ := List.pairwise_append.mp arranged.inOrder
  exact arranged.remove.apart_of_between orderly (arranged.ofKind entry (by simp))
    (fun other member => across other member entry List.mem_cons_self)
    fun other member => List.rel_of_pairwise_cons inBehind member

/-- A value that is put in gets an entry of its own or is counted where its place is held. -/
theorem insert_cases
    (arranged : Arranged kind set.counts)
    (orderly : Orderly kind)
    (isKind : kind value) :
    (∃ front behind, set.counts = front ++ behind ∧
        (set.insert value).counts = front ++ (value, 1) :: behind ∧
        (∀ entry ∈ front, order entry.1 value = .lt) ∧
          ∀ entry ∈ behind, order value entry.1 = .lt) ∨
      ∃ front held count behind, set.counts = front ++ (held, count) :: behind ∧
        (set.insert value).counts = front ++ (held, count + 1) :: behind ∧
        order value held = .eq := by
  rcases arranged.locate_cases orderly isKind with
    ⟨front, behind, isCounts, isSite, before, after⟩ |
      ⟨front, held, count, behind, isCounts, isSite, same⟩
  · refine .inl ⟨front, behind, isCounts, ?_, before, after⟩
    simp [insert, isSite, isCounts, insertIdx_length_append]
  · refine .inr ⟨front, held, count, behind, isCounts, ?_, same⟩
    simp [insert, isSite, isCounts, modify_length_append]

/-- A value that is taken out is counted once less where its place is held. -/
theorem erase_cases
    (arranged : Arranged kind set.counts)
    (orderly : Orderly kind)
    (isKind : kind value) :
    (set.erase value = set ∧ ∀ entry ∈ set.counts, order value entry.1 ≠ .eq) ∨
      ∃ front held count behind, set.counts = front ++ (held, count) :: behind ∧
        order value held = .eq ∧
        (set.erase value).counts =
          if count ≤ 1 then front ++ behind else front ++ (held, count - 1) :: behind := by
  rcases arranged.locate_cases orderly isKind with
    ⟨front, behind, isCounts, isSite, before, after⟩ |
      ⟨front, held, count, behind, isCounts, isSite, same⟩
  · refine .inl ⟨by simp [erase, isSite], ?_⟩
    rw [isCounts] at arranged ⊢
    exact arranged.apart_of_between orderly isKind before after
  · refine .inr ⟨front, held, count, behind, isCounts, same, ?_⟩
    by_cases isLast : count ≤ 1
    · simp [erase, isSite, isCounts, isLast, List.eraseIdx_append]
    · simp [erase, isSite, isCounts, isLast, modify_length_append]

end Arranged

/-! ## Tallies -/

/-- The number of values at the place of a value. -/
def standing (value : Value) (values : List Value) : Nat :=
  values.countP fun held => order value held == .eq

/-- The count that is found at the place of a value. -/
def tally (set : ExtremeSet) (value : Value) : Nat :=
  if (set.locate value).isHeld then
    ((set.counts[(set.locate value).index]?).map Prod.snd).getD 0
  else 0

/-- A value is put into a set or taken out. -/
inductive Change where
  | insert (value : Value)
  | erase (value : Value)

def Change.value : Change → Value
  | .insert value | .erase value => value

/-- The set after a change. -/
def change (set : ExtremeSet) : Change → ExtremeSet
  | .insert value => set.insert value
  | .erase value => set.erase value

/-- The values that are left after a change: one at the place of the erased value goes. -/
def Change.left (values : List Value) : Change → List Value
  | .insert value => values ++ [value]
  | .erase value => values.eraseP fun held => order value held == .eq

section Standing

variable {kind : Value → Prop} {value other : Value} {values : List Value}

theorem standing_append
    (value : Value)
    (values : List Value)
    (other : Value) :
    standing value (values ++ [other]) =
      standing value values + if order value other = .eq then 1 else 0 := by
  by_cases same : order value other = .eq <;> simp [standing, List.countP_append, same]

/-- Values at one place have the same values at their place. -/
theorem standing_congr
    (orderly : Orderly kind)
    (isValue : kind value)
    (isOther : kind other)
    (ofKind : ∀ held ∈ values, kind held)
    (same : order value other = .eq) :
    standing value values = standing other values :=
  List.countP_congr fun held member => by
    rw [orderly.congr_left isValue isOther (ofKind held member) same]

theorem standing_pos_iff :
    0 < standing value values ↔ ∃ held ∈ values, order value held = .eq := by
  simp only [standing, List.countP_pos_iff, beq_iff_eq]

/-- Taking out a value at the place of another one takes it from what stands at that place. -/
theorem standing_eraseP
    (orderly : Orderly kind)
    (isValue : kind value)
    (isOther : kind other)
    (ofKind : ∀ held ∈ values, kind held) :
    standing other (values.eraseP fun held => order value held == .eq) =
      if order other value = .eq then standing other values - 1 else standing other values := by
  rcases List.exists_or_eq_self_of_eraseP (fun held => order value held == .eq) values with
    unchanged | ⟨gone, front, behind, _, atPlace, isValues, erased⟩
  · rw [unchanged]
    split
    next same =>
      have nothing : standing value values = 0 := by
        rw [standing, List.countP_eq_zero]
        exact List.eraseP_eq_self_iff.mp unchanged
      rw [standing_congr orderly isOther isValue ofKind same, nothing]
    next => rfl
  · have isGone : kind gone := ofKind gone (by simp [isValues])
    have alike : order other value = order other gone :=
      orderly.congr_right isOther isValue isGone (beq_iff_eq.mp atPlace)
    rw [erased, isValues, alike]
    simp only [standing, List.countP_append, List.countP_cons, beq_iff_eq]
    split <;> omega

end Standing

/-- The counts of a set tell how many of some values stand at each place. -/
structure Tallied (kind : Value → Prop) (set : ExtremeSet) (values : List Value) : Prop where
  arranged : Arranged kind set.counts
  ofKind : ∀ value ∈ values, kind value
  counts : ∀ entry ∈ set.counts, entry.2 = standing entry.1 values
  covers : ∀ value ∈ values, ∃ entry ∈ set.counts, order value entry.1 = .eq

namespace Tallied

variable {kind : Value → Prop} {set : ExtremeSet} {values : List Value} {value : Value}

theorem empty (kind : Value → Prop) : Tallied kind empty [] :=
  ⟨⟨.nil, nofun, nofun⟩, nofun, nofun, nofun⟩

/-- Nothing stands at a place without an entry. -/
theorem standing_eq_zero
    (tallied : Tallied kind set values)
    (orderly : Orderly kind)
    (isKind : kind value)
    (apart : ∀ entry ∈ set.counts, order value entry.1 ≠ .eq) :
    standing value values = 0 := by
  refine Nat.eq_zero_of_not_pos fun positive => ?_
  obtain ⟨held, member, same⟩ := standing_pos_iff.mp positive
  obtain ⟨entry, isEntry, atEntry⟩ := tallied.covers held member
  refine apart entry isEntry (Eq.trans ?_ atEntry)
  exact orderly.congr_left isKind (tallied.ofKind held member)
    (tallied.arranged.ofKind entry isEntry) same

/-- An entry tells how many values stand at its place when one more comes or one goes elsewhere. -/
private theorem counts_of_apart
    (tallied : Tallied kind set values)
    (orderly : Orderly kind)
    (isKind : kind value)
    {entry : Value × Nat}
    (member : entry ∈ set.counts)
    (apart : order value entry.1 ≠ .eq) :
    entry.2 = standing entry.1 (values ++ [value]) ∧
      entry.2 = standing entry.1 (values.eraseP fun held => order value held == .eq) := by
  have isEntry := tallied.arranged.ofKind entry member
  have turned : order entry.1 value ≠ .eq := fun same => apart (orderly.symm isEntry isKind same)
  rw [standing_append, standing_eraseP orderly isKind isEntry tallied.ofKind, if_neg turned,
    if_neg turned]
  exact ⟨tallied.counts entry member, tallied.counts entry member⟩

/-- All entries but the one at the place of a value are at other places. -/
private theorem apart_of_same
    (tallied : Tallied kind set values)
    (orderly : Orderly kind)
    (isKind : kind value)
    {front behind : List (Value × Nat)}
    {held : Value}
    {count : Nat}
    (isCounts : set.counts = front ++ (held, count) :: behind)
    (same : order value held = .eq) :
    ∀ entry ∈ front ++ behind, order value entry.1 ≠ .eq := by
  have arranged := tallied.arranged
  rw [isCounts] at arranged
  intro entry member
  rw [orderly.congr_left isKind (arranged.ofKind (held, count) (by simp))
    (arranged.ofKind entry (mem_middle.mpr (.inr member))) same]
  exact arranged.apart_of_entry orderly entry member

private theorem covers_recount
    {front behind : List (Value × Nat)}
    {held : Value}
    {count : Nat}
    (covered : ∃ entry ∈ front ++ (held, count) :: behind, order value entry.1 = .eq)
    (other : Nat) :
    ∃ entry ∈ front ++ (held, other) :: behind, order value entry.1 = .eq := by
  obtain ⟨entry, isEntry, atEntry⟩ := covered
  rcases mem_middle.mp isEntry with rfl | isOther
  · exact ⟨(held, other), mem_middle.mpr (.inl rfl), atEntry⟩
  · exact ⟨entry, mem_middle.mpr (.inr isOther), atEntry⟩

/-- One more value stands at the place of a value that is put in. -/
theorem insert
    (tallied : Tallied kind set values)
    (orderly : Orderly kind)
    (isKind : kind value) :
    Tallied kind (set.insert value) (values ++ [value]) := by
  have ofKind : ∀ held ∈ values ++ [value], kind held :=
    List.forall_mem_append.mpr ⟨tallied.ofKind, List.forall_mem_singleton.mpr isKind⟩
  have arranged := tallied.arranged
  rcases arranged.insert_cases orderly isKind with
    ⟨front, behind, isCounts, inserted, before, after⟩ |
      ⟨front, held, count, behind, isCounts, inserted, same⟩
  · have apart := (isCounts ▸ arranged).apart_of_between orderly isKind before after
    rw [isCounts] at arranged
    refine ⟨?_, ofKind, ?_, ?_⟩
    · rw [inserted]
      exact arranged.put isKind before after
    · rw [inserted]
      intro entry member
      rcases mem_middle.mp member with rfl | isOther
      · rw [standing_append, if_pos (orderly.refl isKind),
          tallied.standing_eq_zero orderly isKind (isCounts ▸ apart)]
      · exact (tallied.counts_of_apart orderly isKind (isCounts ▸ isOther) (apart entry isOther)).1
    · rw [inserted]
      intro other member
      rcases List.mem_append.mp member with inValues | isNew
      · obtain ⟨entry, isEntry, atEntry⟩ := tallied.covers other inValues
        exact ⟨entry, mem_middle.mpr (.inr (isCounts ▸ isEntry)), atEntry⟩
      · obtain rfl := List.mem_singleton.mp isNew
        exact ⟨(other, 1), mem_middle.mpr (.inl rfl), orderly.refl isKind⟩
  · have isHeld : kind held := arranged.ofKind (held, count) (by simp [isCounts])
    have apart := tallied.apart_of_same orderly isKind isCounts same
    have covers := tallied.covers
    have counted := tallied.counts (held, count) (by simp [isCounts])
    rw [isCounts] at arranged covers
    refine ⟨?_, ofKind, ?_, ?_⟩
    · rw [inserted]
      exact arranged.recount (Nat.succ_pos count)
    · rw [inserted]
      intro entry member
      rcases mem_middle.mp member with rfl | isOther
      · rw [standing_append, if_pos (orderly.symm isKind isHeld same), ← counted]
      · have isEntry : entry ∈ set.counts := isCounts ▸ mem_middle.mpr (.inr isOther)
        exact (tallied.counts_of_apart orderly isKind isEntry (apart entry isOther)).1
    · rw [inserted]
      intro other member
      rcases List.mem_append.mp member with inValues | isNew
      · exact covers_recount (covers other inValues) (count + 1)
      · obtain rfl := List.mem_singleton.mp isNew
        exact ⟨(held, count + 1), mem_middle.mpr (.inl rfl), same⟩

/-- One value at the place of the given one is taken out, if there is any. -/
theorem erase
    (tallied : Tallied kind set values)
    (orderly : Orderly kind)
    (isKind : kind value) :
    Tallied kind (set.erase value) (values.eraseP fun held => order value held == .eq) := by
  have ofKind : ∀ held ∈ values.eraseP fun held => order value held == .eq, kind held :=
    fun held member => tallied.ofKind held (List.mem_of_mem_eraseP member)
  have arranged := tallied.arranged
  rcases arranged.erase_cases orderly isKind with
    ⟨unchanged, apart⟩ | ⟨front, held, count, behind, isCounts, same, erased⟩
  · have nothing : ∀ held ∈ values, ¬(order value held == .eq) = true :=
      List.countP_eq_zero.mp (tallied.standing_eq_zero orderly isKind apart)
    rw [unchanged, List.eraseP_of_forall_not nothing]
    exact tallied
  · have isHeld : kind held := arranged.ofKind (held, count) (by simp [isCounts])
    have apart := tallied.apart_of_same orderly isKind isCounts same
    have covers := tallied.covers
    have counted : standing held (values.eraseP fun held => order value held == .eq) = count - 1 := by
      rw [standing_eraseP orderly isKind isHeld tallied.ofKind,
        if_pos (orderly.symm isKind isHeld same), ← tallied.counts (held, count) (by simp [isCounts])]
    have others : ∀ entry ∈ front ++ behind,
        entry.2 = standing entry.1 (values.eraseP fun held => order value held == .eq) := by
      intro entry isOther
      have isEntry : entry ∈ set.counts := isCounts ▸ mem_middle.mpr (.inr isOther)
      exact (tallied.counts_of_apart orderly isKind isEntry (apart entry isOther)).2
    rw [isCounts] at arranged covers
    by_cases isLast : count ≤ 1
    · rw [if_pos isLast] at erased
      refine ⟨erased ▸ arranged.remove, ofKind, erased ▸ others, ?_⟩
      rw [erased]
      intro other member
      obtain ⟨entry, isEntry, atEntry⟩ := covers other (List.mem_of_mem_eraseP member)
      rcases mem_middle.mp isEntry with rfl | isOther
      · have positive : 0 < standing held (values.eraseP fun held => order value held == .eq) :=
          standing_pos_iff.mpr ⟨other, member, orderly.symm (ofKind other member) isHeld atEntry⟩
        omega
      · exact ⟨entry, isOther, atEntry⟩
    · rw [if_neg isLast] at erased
      refine ⟨erased ▸ arranged.recount (by omega), ofKind, ?_, ?_⟩
      · rw [erased]
        intro entry member
        rcases mem_middle.mp member with rfl | isOther
        · exact counted.symm
        · exact others entry isOther
      · rw [erased]
        intro other member
        exact covers_recount (covers other (List.mem_of_mem_eraseP member)) (count - 1)

/-- What is found at the place of a value is the number of values there. -/
theorem tally_eq
    (tallied : Tallied kind set values)
    (orderly : Orderly kind)
    (isKind : kind value) :
    set.tally value = standing value values := by
  have arranged := tallied.arranged
  rcases arranged.locate_cases orderly isKind with
    ⟨front, behind, isCounts, isSite, before, after⟩ |
      ⟨front, held, count, behind, isCounts, isSite, same⟩
  · have apart := (isCounts ▸ arranged).apart_of_between orderly isKind before after
    rw [tallied.standing_eq_zero orderly isKind (isCounts ▸ apart)]
    simp [tally, isSite]
  · have isEntry : (held, count) ∈ set.counts := by simp [isCounts]
    have found : set.tally value = count := by simp [tally, isSite, isCounts]
    rw [found, standing_congr orderly isKind (arranged.ofKind _ isEntry) tallied.ofKind same]
    exact tallied.counts _ isEntry

/-- Every entry stands for a value that is left. -/
private theorem exists_of_entry
    (tallied : Tallied kind set values)
    {entry : Value × Nat}
    (member : entry ∈ set.counts) :
    ∃ value ∈ values, order entry.1 value = .eq := by
  rw [← standing_pos_iff, ← tallied.counts entry member]
  exact tallied.arranged.positive entry member

private theorem values_eq_nil
    (tallied : Tallied kind set values)
    (noCounts : set.counts = []) :
    values = [] := by
  refine List.eq_nil_iff_forall_not_mem.mpr fun value member => ?_
  obtain ⟨entry, isEntry, _⟩ := tallied.covers value member
  rw [noCounts] at isEntry
  exact List.not_mem_nil isEntry

/-- The first value in order is at the place of a value that is left, and before all of them. -/
theorem least_cases
    (tallied : Tallied kind set values)
    (orderly : Orderly kind) :
    values = [] ∧ set.least = .null ∨
      (∃ value ∈ values, order set.least value = .eq) ∧
        ∀ value ∈ values, (order set.least value).isLE := by
  cases isCounts : set.counts with
  | nil => exact .inl ⟨tallied.values_eq_nil isCounts, by rw [least, isCounts]; rfl⟩
  | cons first rest =>
      have isLeast : set.least = first.1 := by rw [least, isCounts]; rfl
      have isFirst : first ∈ set.counts := isCounts ▸ List.mem_cons_self
      rw [isLeast]
      refine .inr ⟨tallied.exists_of_entry isFirst, fun value member => ?_⟩
      obtain ⟨entry, isEntry, atEntry⟩ := tallied.covers value member
      have ofFirst := tallied.arranged.ofKind first isFirst
      have ofEntry := tallied.arranged.ofKind entry isEntry
      rw [← orderly.congr_right ofFirst ofEntry (tallied.ofKind value member)
        (orderly.symm (tallied.ofKind value member) ofEntry atEntry)]
      have inOrder := tallied.arranged.inOrder
      rw [isCounts] at inOrder isEntry
      rcases List.mem_cons.mp isEntry with rfl | inRest
      · rw [orderly.refl ofFirst]
        rfl
      · rw [List.rel_of_pairwise_cons inOrder inRest]
        rfl

/-- The last value in order is at the place of a value that is left, and behind all of them. -/
theorem greatest_cases
    (tallied : Tallied kind set values)
    (orderly : Orderly kind) :
    values = [] ∧ set.greatest = .null ∨
      (∃ value ∈ values, order set.greatest value = .eq) ∧
        ∀ value ∈ values, (order value set.greatest).isLE := by
  rcases List.eq_nil_or_concat set.counts with isCounts | ⟨front, last, isCounts⟩
  · exact .inl ⟨tallied.values_eq_nil isCounts, by rw [greatest, isCounts]; rfl⟩
  · rw [List.concat_eq_append] at isCounts
    have isGreatest : set.greatest = last.1 := by simp [greatest, isCounts, Value.ofOption]
    have isLast : last ∈ set.counts := by simp [isCounts]
    rw [isGreatest]
    refine .inr ⟨tallied.exists_of_entry isLast, fun value member => ?_⟩
    obtain ⟨entry, isEntry, atEntry⟩ := tallied.covers value member
    have ofLast := tallied.arranged.ofKind last isLast
    have ofEntry := tallied.arranged.ofKind entry isEntry
    rw [orderly.congr_left (tallied.ofKind value member) ofEntry ofLast atEntry]
    have inOrder := tallied.arranged.inOrder
    rw [isCounts] at inOrder isEntry
    rcases List.mem_append.mp isEntry with inFront | isSame
    · rw [(List.pairwise_append.mp inOrder).2.2 entry inFront last List.mem_cons_self]
      rfl
    · rw [List.mem_singleton.mp isSame, orderly.refl ofLast]
      rfl

theorem changed
    (tallied : Tallied kind set values)
    (orderly : Orderly kind)
    {change : Change}
    (isKind : kind change.value) :
    Tallied kind (set.change change) (change.left values) := by
  cases change with
  | insert value => exact tallied.insert orderly isKind
  | erase value => exact tallied.erase orderly isKind

/-- The counts tell what is left after any changes. -/
theorem changes
    (tallied : Tallied kind set values)
    (orderly : Orderly kind)
    {changes : List Change}
    (areKind : ∀ change ∈ changes, kind change.value) :
    Tallied kind (changes.foldl ExtremeSet.change set) (changes.foldl Change.left values) := by
  induction changes generalizing set values with
  | nil => exact tallied
  | cons change changes inductionHypothesis =>
      obtain ⟨isKind, areKind⟩ := List.forall_mem_cons.mp areKind
      exact inductionHypothesis (tallied.changed orderly isKind) areKind

end Tallied

end EventQuery.ExtremeSet
