import EventQuery.Proofs.Pattern.Growth

namespace EventQuery

namespace Engine

/-!
# Changing states

A change of progress may list orphans, which the state then adopts, and may drop the state in the
gap.  A state that starts to run enters the index of what it waits for.  All of this keeps an engine
coherent.
-/

section Update

variable {compiled : CompiledPattern} {law : RowLaw compiled} {moment horizon : Nat}
  {engine : Engine} {starting : List Ticket} {gap closed : Option (Ticket × PatternState)}
  {orphans left : List Ticket} {changed : Ticket} {change : Progress → Progress}

theorem get?_update
    (engine : Engine)
    (changed : Ticket)
    (change : Progress → Progress)
    (ticket : Ticket) :
    (engine.update changed change).states.get? ticket =
      if ticket = changed then
        (engine.states.get? ticket).map fun state => state.advance change
      else engine.states.get? ticket :=
  Pool.get?_modify engine.states changed _ ticket

theorem get?_update_self
    {state : PatternState}
    (live : engine.states.get? changed = some state)
    (change : Progress → Progress) :
    (engine.update changed change).states.get? changed = some (state.advance change) := by
  rw [get?_update, if_pos rfl, live, Option.map_some]

/-- What is found after a change was found before it, up to the progress that changed. -/
theorem get?_update_cases
    {ticket : Ticket}
    {state : PatternState}
    (live : (engine.update changed change).states.get? ticket = some state) :
    ∃ earlier, engine.states.get? ticket = some earlier ∧
      ((ticket = changed ∧ state = earlier.advance change) ∨
        (ticket ≠ changed ∧ state = earlier)) := by
  rw [get?_update] at live
  by_cases same : ticket = changed
  · rw [if_pos same] at live
    obtain ⟨earlier, found, isState⟩ := Option.map_eq_some_iff.mp live
    exact ⟨earlier, found, .inl ⟨same, isState.symm⟩⟩
  · rw [if_neg same] at live
    exact ⟨state, live, .inr ⟨same, rfl⟩⟩

theorem evolves_update
    (engine : Engine)
    (changed : Ticket)
    (change : Progress → Progress) :
    Evolves engine (engine.update changed change) := by
  constructor
  · intro ticket issued
    exact issued.modify changed _
  · intro ticket state _ live
    obtain ⟨earlier, found, ⟨_, isState⟩ | ⟨_, isState⟩⟩ := get?_update_cases live
    · subst isState
      exact ⟨earlier, found, rfl, rfl, rfl⟩
    · subst isState
      exact ⟨state, found, rfl, rfl, rfl⟩

/-- A new state that its owner lists is found under its ticket. -/
theorem newState_live
    (sound : engine.states.Sound)
    {owner : Ticket}
    {state : PatternState}
    (live : engine.states.get? owner = some state)
    (number : Nat)
    (bindings : Row)
    (change : Progress → Progress) :
    ((engine.create number (some owner) bindings).1.update owner change).states.get?
        (engine.create number (some owner) bindings).2 =
      some (engine.newState number (some owner) bindings) := by
  rw [get?_update, if_neg, get?_create_self sound]
  intro same
  refine not_issued_create sound number (some owner) bindings ?_
  rw [same]
  exact .inl ⟨state, live⟩

theorem Kept.update
    (kept : engine.Kept law moment horizon)
    {owner : PatternState}
    {node : PatternNode}
    (live : engine.states.get? changed = some owner)
    (atNode : compiled.nodes[owner.node]? = some node)
    (fits : law.Fits (moment + 1) owner.node owner.bindings node (change owner.progress))
    (nodup : (change owner.progress).children.Nodup) :
    (engine.update changed change).Kept law moment horizon := by
  constructor
  case pattern =>
      exact kept.pattern
  case sound =>
      exact kept.sound.modify changed _
  case horizon_le =>
      exact kept.horizon_le
  case numbered =>
      intro ticket state found
      obtain ⟨earlier, foundEarlier, ⟨_, isState⟩ | ⟨_, isState⟩⟩ := get?_update_cases found
      · rw [isState]
        exact (kept.numbered foundEarlier :)
      · rw [isState]
        exact kept.numbered foundEarlier
  case numberedOnce =>
      intro first second state other isFirst isSecond same
      obtain ⟨_, firstFound, _, _, firstCreated⟩ :=
        (evolves_update engine changed change).same
          (.inl (get?_update_cases isFirst |>.imp fun _ found => found.1)) isFirst
      obtain ⟨_, secondFound, _, _, secondCreated⟩ :=
        (evolves_update engine changed change).same
          (.inl (get?_update_cases isSecond |>.imp fun _ found => found.1)) isSecond
      exact kept.numberedOnce firstFound secondFound
        (firstCreated.symm.trans (same.trans secondCreated))
  case starts =>
      intro ticket state found
      obtain ⟨earlier, foundEarlier, ⟨_, isState⟩ | ⟨_, isState⟩⟩ := get?_update_cases found
      · rw [isState]
        exact (kept.starts foundEarlier :)
      · rw [isState]
        exact kept.starts foundEarlier
  case fits =>
      intro ticket state found
      obtain ⟨earlier, foundEarlier, ⟨same, isState⟩ | ⟨_, isState⟩⟩ := get?_update_cases found
      · rw [same, live] at foundEarlier
        cases foundEarlier
        rw [isState]
        exact ⟨node, atNode, fits⟩
      · rw [isState]
        exact kept.fits foundEarlier
  case childrenNodup =>
      intro ticket state found
      obtain ⟨earlier, foundEarlier, ⟨same, isState⟩ | ⟨_, isState⟩⟩ := get?_update_cases found
      · rw [same, live] at foundEarlier
        cases foundEarlier
        rw [isState]
        exact nodup
      · rw [isState]
        exact kept.childrenNodup foundEarlier
  case completed =>
      exact kept.completed

private theorem present_of_update
    {ticket : Ticket}
    {state : PatternState}
    (present : (engine.update changed change).Present closed ticket state) :
    ∃ earlier, engine.Present closed ticket earlier ∧ state.node = earlier.node ∧
      state.parent = earlier.parent ∧ state.bindings = earlier.bindings ∧
        state.created = earlier.created := by
  rcases present with found | isGap
  · obtain ⟨earlier, foundEarlier, ⟨_, isState⟩ | ⟨_, isState⟩⟩ := get?_update_cases found
    · subst isState
      exact ⟨earlier, .inl foundEarlier, rfl, rfl, rfl, rfl⟩
    · subst isState
      exact ⟨state, .inl foundEarlier, rfl, rfl, rfl, rfl⟩
  · exact ⟨state, .inr isGap, rfl, rfl, rfl, rfl⟩

private theorem exists_present_update
    {ticket : Ticket}
    {state : PatternState}
    (changed : Ticket)
    (change : Progress → Progress)
    (present : engine.Present closed ticket state) :
    ∃ later, (engine.update changed change).Present closed ticket later ∧
      later.parent = state.parent := by
  rcases present with found | isGap
  · by_cases same : ticket = changed
    · subst same
      exact ⟨state.advance change, .inl (get?_update_self found change), rfl⟩
    · refine ⟨state, .inl ?_, rfl⟩
      rw [get?_update, if_neg same, found]
  · exact ⟨state, .inr isGap, rfl⟩

/-- A change of progress keeps all links when the operands of the changed state are linked. -/
theorem Linked.update
    (linked : engine.Linked law moment gap orphans)
    {owner : PatternState}
    {node : PatternNode}
    (live : engine.states.get? changed = some owner)
    (atNode : compiled.nodes[owner.node]? = some node)
    (others :
      ∀ {ticket : Ticket} {state : PatternState}, state.parent ≠ some changed →
        (engine.Present closed ticket state ∧ ticket ∉ left ↔
          engine.Present gap ticket state ∧ ticket ∉ orphans))
    (adopts :
      ∀ {ticket : Ticket} {state : PatternState},
        engine.Present closed ticket state → ticket ∉ left → state.parent = some changed →
          law.Adopts (moment + 1) owner.node owner.bindings node (change owner.progress) ticket
            state.node state.bindings ∧ owner.created < state.created)
    (lists :
      ∀ ticket ∈ (change owner.progress).children,
        ticket ∉ left ∧
          ∃ state, engine.Present closed ticket state ∧ state.parent = some changed)
    (spent :
      ∀ {ticket : Ticket} {state : PatternState},
        closed = some (ticket, state) → engine.states.Spent ticket ∧ ticket ∉ left) :
    (engine.update changed change).Linked law moment closed left := by
  constructor
  case top =>
      intro ticket state present outside isTop
      obtain ⟨earlier, presentEarlier, node, parent, bindings, _⟩ := present_of_update present
      have isTopEarlier : earlier.parent = none := parent.symm.trans isTop
      obtain ⟨before, outsideBefore⟩ :=
        (others (by rw [isTopEarlier]; simp)).mp ⟨presentEarlier, outside⟩
      rw [node, bindings]
      exact linked.top before outsideBefore isTopEarlier
  case adopted =>
      intro ticket parent state present outside hasParent
      obtain ⟨earlier, presentEarlier, node, sameParent, bindings, created⟩ :=
        present_of_update present
      have hasParentEarlier := sameParent.symm.trans hasParent
      rw [node, bindings, created]
      by_cases isChanged : parent = changed
      · subst isChanged
        obtain ⟨adopted, order⟩ := adopts presentEarlier outside hasParentEarlier
        exact ⟨owner.advance change, _, get?_update_self live change, atNode, adopted, order⟩
      · obtain ⟨before, outsideBefore⟩ :=
          (others (by rw [hasParentEarlier]; simpa using isChanged)).mp
            ⟨presentEarlier, outside⟩
        obtain ⟨lister, listerNode, found, rest⟩ :=
          linked.adopted before outsideBefore hasParentEarlier
        refine ⟨lister, listerNode, ?_, rest⟩
        rw [get?_update, if_neg isChanged, found]
  case listed =>
      intro parent ticket lister found member
      have presentEarlier :
          ticket ∉ left ∧
            ∃ state, engine.Present closed ticket state ∧ state.parent = some parent := by
        obtain ⟨earlier, foundEarlier, ⟨same, isState⟩ | ⟨other, isState⟩⟩ :=
          get?_update_cases found
        · rw [same, live] at foundEarlier
          cases foundEarlier
          rw [isState] at member
          rw [same]
          exact lists ticket member
        · rw [isState] at member
          obtain ⟨outside, state, present, hasParent⟩ := linked.listed foundEarlier member
          obtain ⟨present, outside⟩ :=
            (others (by rw [hasParent]; simpa using other)).mpr ⟨present, outside⟩
          exact ⟨outside, state, present, hasParent⟩
      obtain ⟨outside, state, present, hasParent⟩ := presentEarlier
      obtain ⟨later, presentLater, sameParent⟩ := exists_present_update changed change present
      exact ⟨outside, later, presentLater, sameParent.trans hasParent⟩
  case rooted =>
      intro ticket isRoot
      obtain ⟨outside, state, present, isTop⟩ := linked.rooted isRoot
      obtain ⟨present, outside⟩ := (others (by rw [isTop]; simp)).mpr ⟨present, outside⟩
      obtain ⟨later, presentLater, sameParent⟩ := exists_present_update changed change present
      exact ⟨outside, later, presentLater, sameParent.trans isTop⟩
  case gapSpent =>
      intro ticket state isGap
      obtain ⟨isSpent, outside⟩ := spent isGap
      exact ⟨isSpent.modify changed _, outside⟩

theorem Starting.update
    (fresh : engine.Starting starting)
    (childless :
      changed ∈ starting → ∀ {owner : PatternState},
        engine.states.get? changed = some owner → (change owner.progress).children = []) :
    (engine.update changed change).Starting starting := by
  constructor
  case nodup =>
      exact fresh.nodup
  case issued =>
      intro ticket member
      exact (fresh.issued ticket member).modify changed _
  case childless =>
      intro ticket member state found
      obtain ⟨earlier, foundEarlier, ⟨same, isState⟩ | ⟨_, isState⟩⟩ := get?_update_cases found
      · rw [same] at member foundEarlier
        rw [isState]
        exact childless member foundEarlier
      · rw [isState]
        exact fresh.childless ticket member foundEarlier

/-- A change of progress leaves the indexes when the state waits for the same as before. -/
theorem Indexed.update
    (indexed : engine.Indexed starting)
    (sameWait :
      ∀ {owner : PatternState}, engine.states.get? changed = some owner →
        (change owner.progress).wait = owner.progress.wait) :
    (engine.update changed change).Indexed starting := by
  have ranked : ∀ {rank? : PatternState → Option Rank} {rank : Rank} {ticket : Ticket},
      (∀ {owner : PatternState}, engine.states.get? changed = some owner →
        rank? (owner.advance change) = rank? owner) →
      ((ticket ∉ starting ∧ ∃ state, engine.states.get? ticket = some state ∧
          rank? state = some rank) ↔
        (ticket ∉ starting ∧ ∃ state,
          (engine.update changed change).states.get? ticket = some state ∧
            rank? state = some rank)) := by
    intro rank? rank ticket sameRank
    rw [get?_update]
    by_cases same : ticket = changed
    · rw [if_pos same, same]
      cases live : engine.states.get? changed with
      | none => simp
      | some owner => simp [sameRank live]
    · rw [if_neg same]
  have leaf : ∀ {owner : PatternState}, engine.states.get? changed = some owner →
      (owner.advance change).isLeaf = owner.isLeaf := by
    intro owner live
    simp only [PatternState.isLeaf, PatternState.advance, sameWait live]
  constructor
  case filters =>
      intro rank ticket
      refine (indexed.filters rank ticket).trans (ranked fun live => ?_)
      simp only [PatternState.filterRank?, PatternState.advance, sameWait live]
  case deadlines =>
      intro rank ticket
      refine (indexed.deadlines rank ticket).trans (ranked fun live => ?_)
      simp only [PatternState.deadlineRank?, PatternState.advance, sameWait live]
  case filtersSorted =>
      exact indexed.filtersSorted
  case deadlinesSorted =>
      exact indexed.deadlinesSorted
  case leaves =>
      have counted : (engine.update changed change).states.count PatternState.isLeaf =
          engine.states.count PatternState.isLeaf :=
        Pool.count_modify changed _ _ fun owner live => leaf live
      have old : starting.countP (fun ticket =>
            ((engine.update changed change).states.get? ticket).any PatternState.isLeaf) =
          starting.countP (fun ticket =>
            (engine.states.get? ticket).any PatternState.isLeaf) := by
        refine List.countP_congr ?_
        intro ticket _
        rw [get?_update]
        by_cases same : ticket = changed
        · rw [if_pos same, same]
          cases live : engine.states.get? changed with
          | none => simp
          | some owner => simp [leaf live]
        · rw [if_neg same]
      rw [old, counted]
      exact indexed.leaves

end Update

section Change

variable {compiled : CompiledPattern} {law : RowLaw compiled} {moment horizon : Nat}
  {engine : Engine} {starting : List Ticket} {gap : Option (Ticket × PatternState)}
  {changed : Ticket} {change : Progress → Progress} {owner : PatternState} {node : PatternNode}

/-- A state may change its progress and drop the operand that is gone. -/
theorem Coherent.revise
    (coherent : engine.Coherent law moment horizon starting gap [])
    (live : engine.states.get? changed = some owner)
    (atNode : compiled.nodes[owner.node]? = some node)
    (ofOperand :
      ∀ {sender : Ticket} {child : PatternState},
        gap = some (sender, child) → child.parent = some changed)
    (fits : law.Fits (moment + 1) owner.node owner.bindings node (change owner.progress))
    (sameWait : (change owner.progress).wait = owner.progress.wait)
    (keeps : (change owner.progress).children.Sublist owner.progress.children)
    (drops :
      ∀ {sender : Ticket} {child : PatternState},
        gap = some (sender, child) → sender ∉ (change owner.progress).children)
    (carries :
      ∀ {ticket : Ticket} {child : Nat} {row : Row},
        (∀ state, gap ≠ some (ticket, state)) →
          law.Adopts (moment + 1) owner.node owner.bindings node owner.progress ticket child row →
            law.Adopts (moment + 1) owner.node owner.bindings node (change owner.progress) ticket
              child row) :
    (engine.update changed change).Coherent law moment horizon starting none [] := by
  have onlyOwner : ∀ {other : PatternState},
      engine.states.get? changed = some other → other = owner := by
    intro other found
    exact Option.some.inj (found.symm.trans live)
  constructor
  case kept =>
      exact coherent.kept.update live atNode fits
        ((coherent.kept.childrenNodup live).sublist keeps)
  case linked =>
      refine coherent.linked.update live atNode ?_ ?_ ?_ ?_
      · intro ticket state otherParent
        have noGap : gap ≠ some (ticket, state) := fun isGap => otherParent (ofOperand isGap)
        simp [Present, noGap]
      · intro ticket state present _ hasParent
        have found : engine.states.get? ticket = some state := present.resolve_right (by simp)
        have noGap : ∀ other, gap ≠ some (ticket, other) := by
          intro other isGap
          rw [(coherent.linked.gapSpent isGap).1.get?_eq_none] at found
          cases found
        obtain ⟨other, otherNode, foundOther, atOther, adopted, order⟩ :=
          coherent.linked.adopted (.inl found) (by simp) hasParent
        cases onlyOwner foundOther
        cases atNode.symm.trans atOther
        exact ⟨carries noGap adopted, order⟩
      · intro ticket member
        obtain ⟨_, state, present, hasParent⟩ :=
          coherent.linked.listed live (keeps.subset member)
        rcases present with found | isGap
        · exact ⟨by simp, state, .inl found, hasParent⟩
        · exact absurd member (drops isGap)
      · intro ticket state isGap
        cases isGap
  case fresh =>
      refine coherent.fresh.update ?_
      intro member other found
      cases onlyOwner found
      have childless := coherent.fresh.childless changed member live
      rw [childless] at keeps
      exact List.sublist_nil.mp keeps
  case indexed =>
      refine coherent.indexed.update ?_
      intro other found
      cases onlyOwner found
      exact sameWait

/-- A state that runs may adopt orphans. -/
theorem Coherent.adopt
    {created : List Ticket}
    (coherent : engine.Coherent law moment horizon starting none created)
    (live : engine.states.get? changed = some owner)
    (atNode : compiled.nodes[owner.node]? = some node)
    (runs : changed ∉ starting)
    (fits : law.Fits (moment + 1) owner.node owner.bindings node (change owner.progress))
    (sameWait : (change owner.progress).wait = owner.progress.wait)
    (lists : (change owner.progress).children = owner.progress.children ++ created)
    (distinct : created.Nodup)
    (new :
      ∀ ticket ∈ created,
        ∃ state, engine.states.get? ticket = some state ∧ state.parent = some changed ∧
          owner.created < state.created ∧
            law.Adopts (moment + 1) owner.node owner.bindings node (change owner.progress) ticket
              state.node state.bindings)
    (carries :
      ∀ {ticket : Ticket} {child : Nat} {row : Row},
        law.Adopts (moment + 1) owner.node owner.bindings node owner.progress ticket child row →
          law.Adopts (moment + 1) owner.node owner.bindings node (change owner.progress) ticket
            child row) :
    (engine.update changed change).Coherent law moment horizon starting none [] := by
  have onlyOwner : ∀ {other : PatternState},
      engine.states.get? changed = some other → other = owner := by
    intro other found
    exact Option.some.inj (found.symm.trans live)
  constructor
  case kept =>
      refine coherent.kept.update live atNode fits ?_
      rw [lists]
      refine List.nodup_append.mpr ⟨coherent.kept.childrenNodup live, distinct, ?_⟩
      intro first isFirst second isSecond same
      exact (coherent.linked.listed live isFirst).1 (same ▸ isSecond)
  case linked =>
      refine coherent.linked.update live atNode ?_ ?_ ?_ ?_
      · intro ticket state otherParent
        refine ⟨?_, fun both => ⟨both.1, by simp⟩⟩
        rintro ⟨present, _⟩
        refine ⟨present, fun member => otherParent ?_⟩
        obtain ⟨other, found, hasParent, _⟩ := new ticket member
        rw [coherent.linked.present_unique present (.inl found)]
        exact hasParent
      · intro ticket state present _ hasParent
        by_cases member : ticket ∈ created
        · obtain ⟨other, found, _, order, adopted⟩ := new ticket member
          rw [coherent.linked.present_unique present (.inl found)]
          exact ⟨adopted, order⟩
        · obtain ⟨other, otherNode, foundOther, atOther, adopted, order⟩ :=
            coherent.linked.adopted present member hasParent
          cases onlyOwner foundOther
          cases atNode.symm.trans atOther
          exact ⟨carries adopted, order⟩
      · intro ticket member
        rw [lists] at member
        refine ⟨by simp, ?_⟩
        rcases List.mem_append.mp member with old | isNew
        · exact (coherent.linked.listed live old).2
        · obtain ⟨state, found, hasParent, _⟩ := new ticket isNew
          exact ⟨state, .inl found, hasParent⟩
      · intro ticket state isGap
        cases isGap
  case fresh =>
      exact coherent.fresh.update fun member => absurd member runs
  case indexed =>
      refine coherent.indexed.update ?_
      intro other found
      cases onlyOwner found
      exact sameWait

end Change

end Engine

end EventQuery
