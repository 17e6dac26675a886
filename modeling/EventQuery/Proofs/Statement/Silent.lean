import EventQuery.Proofs.Statement.TwinTurns

namespace EventQuery

/-!
# Silent events

An event of a stream that falls into a group that is not looked at can be given to one of two twins
only.  It leaves the other groups with their states and times, and as long as no state fails to be
created it does not stop the statement.  A window is shared by the groups, so there must be none.
-/

namespace Statement

open StateStore (SameStates Unseen)

/-- All states of a group can be had when all can be created. -/
theorem obtainAll_of_unfailing
    {store : StateStore}
    {aggregates : List AggregateSlot}
    (sound : store.Sound)
    (unfailing : ∀ aggregate ∈ aggregates, aggregate.handler.Unfailing)
    (id : StatementId)
    (key : GroupKey)
    (occasion : Occasion)
    (position : Nat) :
    ∃ obtained handles,
      obtainAll id key occasion store position aggregates = (obtained, .ok handles) := by
  induction aggregates generalizing store position with
  | nil => exact ⟨store, [], rfl⟩
  | cons aggregate rest inductionHypothesis =>
      rw [List.forall_mem_cons] at unfailing
      obtain ⟨state, demanded⟩ : ∃ state,
          store.demanded id key aggregate.handler (position :: occasion) = .ok state := by
        rw [StateStore.demanded]
        split
        next state _ => exact ⟨state, rfl⟩
        next => exact unfailing.1 (position :: occasion) id key
      obtain ⟨obtained, handle, first, _⟩ := sound.obtain_of_demanded demanded
      have soundAfter := sound.obtain id key aggregate.handler (position :: occasion)
      rw [first] at soundAfter
      obtain ⟨last, handles, others⟩ := inductionHypothesis soundAfter unfailing.2 (position + 1)
      exact ⟨last, handle :: handles, by simp only [obtainAll, first, others]⟩

/-- Without a window, a row of a group only enters the states of its group. -/
theorem aggregateRow_of_unwindowed
    {statement : Statement}
    (unwindowed : statement.plan.window = none)
    (store : StateStore)
    (key : GroupKey)
    (handles : List StateHandle)
    (row : Row)
    (occasion : Occasion) :
    (statement.aggregateRow store key handles row occasion).1 = statement.touchGroup key ∧
      (statement.aggregateRow store key handles row occasion).2.1 =
        (enterAll row (2 :: occasion) store 0 (statement.distinctHandles handles)).1 := by
  rcases entering : enterAll row (2 :: occasion) store 0 (statement.distinctHandles handles) with
    ⟨grown, entered, fault⟩
  have slid : ∀ added, statement.slideWindow grown added (3 :: occasion) = (statement, grown) := by
    intro added
    rw [slideWindow, unwindowed]
  simp only [aggregateRow, entering, slid]
  cases fault with
  | some fault => exact ⟨rfl, rfl⟩
  | none =>
      dsimp only
      split <;> exact ⟨rfl, rfl⟩

namespace Twin

variable {visible : GroupKey → Prop} {first second : Statement} {store other : StateStore}
  {key : GroupKey}

/-- One of two twins can be changed alone where nobody looks. -/
theorem of_unseen
    {next : Statement}
    {left : StateStore}
    (twin : Twin visible first store second other)
    (matched : next.Matches second)
    (id : next.id = first.id)
    (window : next.window = first.window)
    (seen : ∀ group, visible group → next.lastSeen group = first.lastSeen group)
    (states : SameStates (fun id group => id = first.id ∧ visible group) left store)
    (tied : next.Tied left)
    (sound : left.Sound) :
    Twin visible next left second other where
  same := matched
  seen := fun group isVisible => (seen group isVisible).trans (twin.seen group isVisible)
  states := by
    rw [id]
    exact twin.states.of_sameStates sound fun group isVisible => states _ group ⟨rfl, isVisible⟩
  tied := tied
  otherTied := twin.otherTied
  covered := by
    rw [window]
    exact twin.covered

section Hidden

variable (twin : Twin visible first store second other)
  (running : first.stopped = false)
  (hidden : ∀ group, visible group → (key == group) = false)

include twin running hidden

theorem openGroup_of_hidden
    (unfailing : ∀ aggregate ∈ first.plan.aggregates, aggregate.handler.Unfailing)
    (occasion : Occasion) :
    ∃ opened obtained group,
      first.openGroup store key occasion = (opened, obtained, .ok group.handles) ∧
        opened.group? key = some group ∧ Twin visible opened obtained second other := by
  rcases isOpen : first.group? key with _ | group
  · obtain ⟨obtained, handles, obtaining⟩ :=
      obtainAll_of_unfailing twin.states.sound unfailing first.id key occasion 0
    have opening : first.openGroup store key occasion =
        ({ first with groups := first.groups ++ [⟨key, handles, first.now⟩] }, obtained,
          .ok handles) := by
      simp only [Statement.openGroup, isOpen, obtaining]
    obtain ⟨group, nowOpen, rfl⟩ := group?_of_openGroup opening
    obtain ⟨_, moves⟩ := moves_openGroup running opening
    obtain ⟨tied, sound⟩ := twin.tied.moves twin.states.sound moves
    have unseen : Unseen (fun id group => id = first.id ∧ visible group) first.id key :=
      fun group same isSeen => by cases same.symm.trans (hidden group isSeen.2)
    have states := sameStates_openGroup twin.states.sound unseen occasion
    rw [opening] at states
    refine ⟨_, obtained, group, opening, nowOpen, twin.of_unseen ?_ rfl rfl ?_ states tied sound⟩
    · rw [Matches, twin.same]
    · intro other isVisible
      rw [lastSeen_append group.handles isOpen, hidden other isVisible]
      rfl
  · exact ⟨first, store, group, openGroup_of_open isOpen, isOpen, twin⟩

theorem aggregateRow_of_hidden
    {group : OpenGroup}
    (unwindowed : first.plan.window = none)
    (isOpen : first.group? key = some group)
    (row : Row)
    (occasion : Occasion) :
    Twin visible (first.aggregateRow store key group.handles row occasion).1
      (first.aggregateRow store key group.handles row occasion).2.1 second other := by
  obtain ⟨member, same⟩ := mem_of_group? isOpen
  obtain ⟨tied, sound⟩ := twin.tied.moves twin.states.sound
    (.of_move (.aggregated row occasion running isOpen))
  obtain ⟨touched, entered⟩ := aggregateRow_of_unwindowed unwindowed store key group.handles row
    occasion
  rw [touched] at tied ⊢
  refine twin.of_unseen ?_ rfl rfl ?_ ?_ tied sound
  · rw [Matches, Statement.touchGroup, twin.same]
  · intro other isVisible
    rw [lastSeen_touchGroup, hidden other isVisible]
    rfl
  · rw [entered, ← performAll_enterCalls]
    refine .performAll_of_uses twin.states.sound fun call isCall => ?_
    obtain ⟨handle, isHandle, uses⟩ := uses_of_mem_enterCalls isCall
    obtain ⟨stateKey, found⟩ :=
      twin.tied.lookup_of_mem member (mem_of_mem_distinctHandles isHandle)
    refine ⟨handle, first.id, group.key, stateKey, uses, found, fun other inGroup isSeen => ?_⟩
    have different := hidden other isSeen.2
    rw [← BEq.congr_left same, inGroup] at different
    cases different

end Hidden

/-- A row of a group that is not looked at can be taken by one of two twins only. -/
theorem evaluateRow_of_hidden
    {row : Row}
    {occasion : Occasion}
    (twin : Twin visible first store second other)
    (running : first.stopped = false)
    (unwindowed : first.plan.window = none)
    (unfailing : ∀ aggregate ∈ first.plan.aggregates, aggregate.handler.Unfailing)
    (hidden : ∀ key, first.plan.select? row occasion = .ok (some key) →
      ∀ group, visible group → (key == group) = false) :
    ∃ result changed updated,
      first.evaluateRow store row occasion = (changed, updated, .ok result) ∧
        Twin visible changed updated second other := by
  rcases selecting : first.plan.select? row occasion with fault | _ | key
  · exact ⟨.faulted fault, first, store, by simp only [Statement.evaluateRow, selecting], twin⟩
  · exact ⟨.filtered, first, store, by simp only [Statement.evaluateRow, selecting], twin⟩
  · cases aggregates : first.plan.aggregates.isEmpty with
    | true =>
        refine ⟨first.plan.project row occasion, first, store, ?_, twin⟩
        simp only [Statement.evaluateRow, selecting, aggregates, if_true]
    | false =>
        have isHidden := hidden key selecting
        obtain ⟨opened, obtained, group, opening, isOpen, openedTwin⟩ :=
          twin.openGroup_of_hidden running isHidden unfailing (5 :: occasion)
        obtain ⟨stillRunning, moves⟩ := moves_openGroup running opening
        refine ⟨(opened.aggregateRow obtained key group.handles row occasion).2.2, _, _, ?_,
          openedTwin.aggregateRow_of_hidden stillRunning isHidden
            (by rw [moves.same.2]; exact unwindowed) isOpen row occasion⟩
        simp only [Statement.evaluateRow, selecting, aggregates, opening]
        rfl

/-- An event of a group that is not looked at can be taken by one of two twins only. -/
theorem send_of_hidden
    {eventType : String}
    (twin : Twin visible first store second other)
    (source : first.plan.source = .stream eventType none)
    (noEngine : first.engine = none)
    (unfailing : ∀ aggregate ∈ first.plan.aggregates, aggregate.handler.Unfailing)
    (event : Event)
    (occasion : Occasion)
    (hidden : event.kind = eventType → ∀ occasion key,
      first.plan.select? [.event event] occasion = .ok (some key) →
        ∀ group, visible group → (key == group) = false) :
    Twin visible (first.send store event occasion).1 (first.send store event occasion).2.1 second
      other := by
  cases running : first.stopped with
  | true =>
      rw [Statement.send, if_pos running]
      exact twin
  | false =>
      by_cases kind : event.kind = eventType
      · have unwindowed : first.plan.window = none := by
          rw [Plan.window, source]
          rfl
        obtain ⟨result, changed, updated, evaluating, changedTwin⟩ :=
          twin.evaluateRow_of_hidden running unwindowed unfailing (hidden kind (0 :: 0 :: occasion))
        have frame := SameFrame.evaluateRow first store [.event event] (0 :: 0 :: occasion)
        rw [evaluating] at frame
        have noEngineAfter : changed.engine = none := frame.engine.trans noEngine
        have settled := settle_of_fine changed updated
          (error_report (StatementOutput.blank first.id first.plan.name |>.addFaults []) result)
        rw [drain_of_no_engine noEngineAfter] at settled
        simp only [Statement.send, running, rowsOf, source, kind, if_true, Bool.false_eq_true,
          if_false, Statement.evaluateRows, evaluating]
        rw [settled]
        exact changedTwin
      · have settled := settle_of_fine first store
          (rfl : ((StatementOutput.blank first.id first.plan.name).addFaults []).error = none)
        rw [drain_of_no_engine noEngine] at settled
        simp only [Statement.send, running, rowsOf, source, kind, Bool.false_eq_true, if_false,
          Pairing.empty, Statement.evaluateRows]
        rw [settled]
        exact twin

end Twin

end Statement

end EventQuery
