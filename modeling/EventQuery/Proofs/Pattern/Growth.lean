import EventQuery.Proofs.Pattern.Coherence

namespace EventQuery

namespace Engine

/-!
# Creating states

A new state is an orphan that does not run yet: creating one keeps an engine coherent.
-/

/-- Later engines hand out no ticket twice, and a ticket stands for the same state in them. -/
structure Evolves (before after : Engine) : Prop where
  issued :
    ∀ {ticket : Ticket}, before.states.Issued ticket → after.states.Issued ticket
  same :
    ∀ {ticket : Ticket} {state : PatternState},
      before.states.Issued ticket → after.states.get? ticket = some state →
        ∃ earlier, before.states.get? ticket = some earlier ∧ state.node = earlier.node ∧
          state.parent = earlier.parent ∧ state.created = earlier.created

namespace Evolves

theorem refl
    (engine : Engine) :
    Evolves engine engine where
  issued := id
  same := fun _ live => ⟨_, live, rfl, rfl, rfl⟩

theorem trans
    {first second third : Engine}
    (earlier : Evolves first second)
    (later : Evolves second third) :
    Evolves first third where
  issued := fun issued => later.issued (earlier.issued issued)
  same := by
    intro ticket state issued live
    obtain ⟨middle, middleLive, node, parent, created⟩ :=
      later.same (earlier.issued issued) live
    obtain ⟨first, firstLive, firstNode, firstParent, firstCreated⟩ :=
      earlier.same issued middleLive
    exact ⟨first, firstLive, node.trans firstNode, parent.trans firstParent,
      created.trans firstCreated⟩

theorem of_states_eq
    {before after : Engine}
    (same : after.states = before.states) :
    Evolves before after := by
  constructor
  · intro ticket issued
    rw [same]
    exact issued
  · intro ticket state _ live
    rw [same] at live
    exact ⟨state, live, rfl, rfl, rfl⟩

end Evolves

section Create

variable {compiled : CompiledPattern} {law : RowLaw compiled} {moment horizon : Nat}
  {engine : Engine} {starting : List Ticket} {gap : Option (Ticket × PatternState)}
  {orphans : List Ticket}

/-- The state that is created for a node. -/
def newState (engine : Engine) (number : Nat) (parent : Option Ticket) (bindings : Row) :
    PatternState :=
  ⟨number, parent, engine.next, bindings,
    (engine.pattern.nodes[number]?.map (Progress.initial engine.now bindings)).getD .filter⟩

theorem states_create
    (engine : Engine)
    (number : Nat)
    (parent : Option Ticket)
    (bindings : Row) :
    (engine.create number parent bindings).1.states =
      (engine.states.insert (engine.newState number parent bindings)).1 :=
  rfl

theorem get?_create
    (sound : engine.states.Sound)
    (number : Nat)
    (parent : Option Ticket)
    (bindings : Row)
    (ticket : Ticket) :
    (engine.create number parent bindings).1.states.get? ticket =
      if ticket = (engine.create number parent bindings).2 then
        some (engine.newState number parent bindings)
      else engine.states.get? ticket :=
  Pool.get?_insert sound _ ticket

theorem get?_create_self
    (sound : engine.states.Sound)
    (number : Nat)
    (parent : Option Ticket)
    (bindings : Row) :
    (engine.create number parent bindings).1.states.get?
        (engine.create number parent bindings).2 =
      some (engine.newState number parent bindings) := by
  rw [get?_create sound, if_pos rfl]

theorem not_issued_create
    (sound : engine.states.Sound)
    (number : Nat)
    (parent : Option Ticket)
    (bindings : Row) :
    ¬engine.states.Issued (engine.create number parent bindings).2 :=
  Pool.not_issued_insert sound _

theorem ne_create
    (sound : engine.states.Sound)
    (number : Nat)
    (parent : Option Ticket)
    (bindings : Row)
    {ticket : Ticket}
    (issued : engine.states.Issued ticket) :
    ticket ≠ (engine.create number parent bindings).2 := by
  intro same
  exact not_issued_create sound number parent bindings (same ▸ issued)

theorem get?_create_of_live
    (sound : engine.states.Sound)
    (number : Nat)
    (parent : Option Ticket)
    (bindings : Row)
    {ticket : Ticket}
    {state : PatternState}
    (live : engine.states.get? ticket = some state) :
    (engine.create number parent bindings).1.states.get? ticket = some state := by
  rw [get?_create sound, if_neg (ne_create sound _ _ _ (.inl ⟨state, live⟩)), live]

theorem evolves_create
    (sound : engine.states.Sound)
    (number : Nat)
    (parent : Option Ticket)
    (bindings : Row) :
    Evolves engine (engine.create number parent bindings).1 := by
  constructor
  · intro ticket issued
    rw [states_create]
    exact .insert sound _ (.inl issued)
  · intro ticket state issued live
    rw [get?_create sound, if_neg (ne_create sound _ _ _ issued)] at live
    exact ⟨state, live, rfl, rfl, rfl⟩

/-- What is found after a state was created is that state or was found before. -/
theorem get?_create_cases
    (sound : engine.states.Sound)
    {number : Nat}
    {parent : Option Ticket}
    {bindings : Row}
    {ticket : Ticket}
    {state : PatternState}
    (live : (engine.create number parent bindings).1.states.get? ticket = some state) :
    (ticket = (engine.create number parent bindings).2 ∧
        state = engine.newState number parent bindings) ∨
      (ticket ≠ (engine.create number parent bindings).2 ∧
        engine.states.get? ticket = some state) := by
  rw [get?_create sound] at live
  by_cases isNew : ticket = (engine.create number parent bindings).2
  · rw [if_pos isNew] at live
    exact .inl ⟨isNew, (Option.some.inj live).symm⟩
  · rw [if_neg isNew] at live
    exact .inr ⟨isNew, live⟩

private theorem present_create_iff
    (sound : engine.states.Sound)
    {number : Nat}
    {parent : Option Ticket}
    {bindings : Row}
    {ticket : Ticket}
    {state : PatternState}
    (other : ticket ≠ (engine.create number parent bindings).2) :
    (engine.create number parent bindings).1.Present gap ticket state ↔
      engine.Present gap ticket state := by
  rw [Present, Present, get?_create sound, if_neg other]

theorem Kept.create
    (kept : engine.Kept law moment horizon)
    {number : Nat}
    {parent : Option Ticket}
    {bindings : Row}
    {node : PatternNode}
    (atNumber : compiled.nodes[number]? = some node)
    (starts : law.start (moment + 1) number bindings) :
    (engine.create number parent bindings).1.Kept law moment horizon := by
  have progressShape :
      (engine.newState number parent bindings).progress =
        Progress.initial engine.now bindings node := by
    simp [newState, kept.pattern, atNumber]
  constructor
  case pattern =>
      exact kept.pattern
  case sound =>
      exact kept.sound.insert _
  case horizon_le =>
      exact Nat.le_succ_of_le kept.horizon_le
  case numbered =>
      intro ticket state live
      rcases get?_create_cases kept.sound live with ⟨_, isNew⟩ | ⟨_, old⟩
      · subst isNew
        exact Nat.lt_succ_self _
      · exact Nat.lt_succ_of_lt (kept.numbered old)
  case numberedOnce =>
      intro first second state other isFirst isSecond same
      rcases get?_create_cases kept.sound isFirst with ⟨firstNew, firstState⟩ | ⟨_, firstOld⟩
      · rcases get?_create_cases kept.sound isSecond with ⟨secondNew, _⟩ | ⟨_, secondOld⟩
        · exact firstNew.trans secondNew.symm
        · subst firstState
          exact absurd (kept.numbered secondOld) (by rw [← same]; exact Nat.lt_irrefl _)
      · rcases get?_create_cases kept.sound isSecond with ⟨_, secondState⟩ | ⟨_, secondOld⟩
        · subst secondState
          exact absurd (kept.numbered firstOld) (by rw [same]; exact Nat.lt_irrefl _)
        · exact kept.numberedOnce firstOld secondOld same
  case starts =>
      intro ticket state live
      rcases get?_create_cases kept.sound live with ⟨_, isNew⟩ | ⟨_, old⟩
      · subst isNew
        have late : ¬engine.next < horizon := Nat.not_lt.mpr kept.horizon_le
        simpa [birth, newState, late] using starts
      · exact kept.starts old
  case fits =>
      intro ticket state live
      rcases get?_create_cases kept.sound live with ⟨_, isNew⟩ | ⟨_, old⟩
      · subst isNew
        refine ⟨node, atNumber, ?_⟩
        rw [progressShape]
        exact RowLaw.fits_initial atNumber starts engine.now
      · exact kept.fits old
  case childrenNodup =>
      intro ticket state live
      rcases get?_create_cases kept.sound live with ⟨_, isNew⟩ | ⟨_, old⟩
      · subst isNew
        rw [progressShape, RowLaw.children_initial]
        exact List.nodup_nil
      · exact kept.childrenNodup old
  case completed =>
      exact kept.completed

/-- A new state has no operands. -/
private theorem children_newState
    (number : Nat)
    (parent : Option Ticket)
    (bindings : Row) :
    (engine.newState number parent bindings).progress.children = [] := by
  unfold newState
  cases engine.pattern.nodes[number]? with
  | none => rfl
  | some node => exact RowLaw.children_initial engine.now bindings node

/-- Creating a state leaves the links of all others; the new one is an orphan. -/
theorem Linked.create
    (linked : engine.Linked law moment gap orphans)
    (sound : engine.states.Sound)
    (number : Nat)
    (parent : Option Ticket)
    (bindings : Row) :
    (engine.create number parent bindings).1.Linked law moment gap
      ((engine.create number parent bindings).2 :: orphans) := by
  have presentOld : ∀ {ticket : Ticket} {state : PatternState},
      (engine.create number parent bindings).1.Present gap ticket state →
        ticket ∉ (engine.create number parent bindings).2 :: orphans →
          engine.Present gap ticket state ∧ ticket ∉ orphans := by
    intro ticket state present outside
    rw [List.mem_cons, not_or] at outside
    exact ⟨(present_create_iff sound outside.1).mp present, outside.2⟩
  have presentNew : ∀ {ticket : Ticket} {state : PatternState},
      engine.Present gap ticket state → ticket ∉ orphans →
        (engine.create number parent bindings).1.Present gap ticket state ∧
          ticket ∉ (engine.create number parent bindings).2 :: orphans := by
    intro ticket state present outside
    have other := ne_create sound number parent bindings (linked.issued_of_present present)
    exact ⟨(present_create_iff sound other).mpr present,
      by rw [List.mem_cons, not_or]; exact ⟨other, outside⟩⟩
  constructor
  case top =>
      intro ticket state present outside isTop
      obtain ⟨old, oldOutside⟩ := presentOld present outside
      exact linked.top old oldOutside isTop
  case adopted =>
      intro ticket parent state present outside hasParent
      obtain ⟨old, oldOutside⟩ := presentOld present outside
      obtain ⟨owner, node, live, rest⟩ := linked.adopted old oldOutside hasParent
      exact ⟨owner, node, get?_create_of_live sound _ _ _ live, rest⟩
  case listed =>
      intro lister ticket owner live member
      rcases get?_create_cases sound live with ⟨_, isState⟩ | ⟨_, old⟩
      · rw [isState, children_newState] at member
        cases member
      · obtain ⟨outside, state, present, hasParent⟩ := linked.listed old member
        obtain ⟨present, outside⟩ := presentNew present outside
        exact ⟨outside, state, present, hasParent⟩
  case rooted =>
      intro ticket isRoot
      obtain ⟨outside, state, present, isTop⟩ := linked.rooted isRoot
      obtain ⟨present, outside⟩ := presentNew present outside
      exact ⟨outside, state, present, isTop⟩
  case gapSpent =>
      intro ticket state isGap
      obtain ⟨spent, outside⟩ := linked.gapSpent isGap
      obtain ⟨_, outside⟩ := presentNew (.inr isGap) outside
      exact ⟨spent.insert sound _, outside⟩

theorem Starting.create
    (fresh : engine.Starting starting)
    (sound : engine.states.Sound)
    (number : Nat)
    (parent : Option Ticket)
    (bindings : Row) :
    (engine.create number parent bindings).1.Starting
      ((engine.create number parent bindings).2 :: starting) := by
  constructor
  case nodup =>
      refine List.nodup_cons.mpr ⟨?_, fresh.nodup⟩
      intro member
      exact not_issued_create sound number parent bindings (fresh.issued _ member)
  case issued =>
      intro ticket member
      rw [states_create]
      refine Pool.Issued.insert sound _ ?_
      rcases List.mem_cons.mp member with isNew | old
      · exact .inr isNew
      · exact .inl (fresh.issued ticket old)
  case childless =>
      intro ticket member state live
      rcases get?_create_cases sound live with ⟨_, isState⟩ | ⟨other, old⟩
      · rw [isState]
        exact children_newState number parent bindings
      · exact fresh.childless ticket ((List.mem_cons.mp member).resolve_left other) old

theorem Indexed.create
    (indexed : engine.Indexed starting)
    (fresh : engine.Starting starting)
    (sound : engine.states.Sound)
    (number : Nat)
    (parent : Option Ticket)
    (bindings : Row) :
    (engine.create number parent bindings).1.Indexed
      ((engine.create number parent bindings).2 :: starting) := by
  have ranked : ∀ {rank? : PatternState → Option Rank} {rank : Rank} {ticket : Ticket},
      (ticket ∉ starting ∧ ∃ state, engine.states.get? ticket = some state ∧
          rank? state = some rank) ↔
        (ticket ∉ (engine.create number parent bindings).2 :: starting ∧
          ∃ state,
            (engine.create number parent bindings).1.states.get? ticket = some state ∧
              rank? state = some rank) := by
    intro rank? rank ticket
    rw [List.mem_cons, not_or, get?_create sound]
    constructor
    · rintro ⟨outside, state, live, isRank⟩
      have other := ne_create sound number parent bindings (.inl ⟨state, live⟩)
      exact ⟨⟨other, outside⟩, state, by rw [if_neg other]; exact live, isRank⟩
    · rintro ⟨⟨other, outside⟩, state, live, isRank⟩
      rw [if_neg other] at live
      exact ⟨outside, state, live, isRank⟩
  constructor
  case filters =>
      intro rank ticket
      exact (indexed.filters rank ticket).trans ranked
  case deadlines =>
      intro rank ticket
      exact (indexed.deadlines rank ticket).trans ranked
  case filtersSorted =>
      exact indexed.filtersSorted
  case deadlinesSorted =>
      exact indexed.deadlinesSorted
  case leaves =>
      have old : starting.countP (fun ticket =>
            ((engine.create number parent bindings).1.states.get? ticket).any
              PatternState.isLeaf) =
          starting.countP (fun ticket =>
            (engine.states.get? ticket).any PatternState.isLeaf) := by
        refine List.countP_congr ?_
        intro ticket member
        rw [get?_create sound, if_neg (ne_create sound _ _ _ (fresh.issued ticket member))]
      have counted := indexed.leaves
      rw [List.countP_cons, old, get?_create_self sound, Option.any_some, states_create,
        Pool.count_insert sound, ← counted]
      exact (Nat.add_assoc _ _ _).symm

/-- Creating a state keeps an engine coherent: it is an orphan and does not run yet. -/
theorem Coherent.create
    (coherent : engine.Coherent law moment horizon starting gap orphans)
    (number : Nat)
    (parent : Option Ticket)
    {bindings : Row}
    {node : PatternNode}
    (atNumber : compiled.nodes[number]? = some node)
    (starts : law.start (moment + 1) number bindings) :
    (engine.create number parent bindings).1.Coherent law moment horizon
      ((engine.create number parent bindings).2 :: starting) gap
      ((engine.create number parent bindings).2 :: orphans) where
  kept := coherent.kept.create atNumber starts
  linked := coherent.linked.create coherent.kept.sound number parent bindings
  fresh := coherent.fresh.create coherent.kept.sound number parent bindings
  indexed := coherent.indexed.create coherent.fresh coherent.kept.sound number parent bindings

end Create

end Engine

end EventQuery
