import EventQuery.Proofs.Statement.Alike

namespace EventQuery

/-!
# Twins

Twins are two statements of one plan that have come to the same point, maybe under different numbers
and in different stores.  They differ in the handles that they hold, and in groups that are not
looked at.  Twins that take the same row tell the same of it, and are twins afterwards.
-/

/-- Whether a plan does the same on every occasion, and takes two statements alike. -/
structure Plan.Relabels (plan : Plan) (rename : String → String) (first second : StatementId) :
    Prop where
  steady : plan.Steady
  handlers : ∀ aggregate ∈ plan.aggregates, aggregate.handler.Relabels rename first second

namespace Statement

section Groups

variable {statement : Statement} {key other : GroupKey}

/-- The time of the last row of a group, while it is open. -/
def lastSeen (statement : Statement) (key : GroupKey) : Option Int :=
  (statement.group? key).map OpenGroup.lastUpdate

theorem group?_congr
    (same : (key == other) = true) :
    statement.group? key = statement.group? other := by
  have equal : (fun group : OpenGroup => group.key.same key) = fun group => group.key.same other :=
    funext fun group => BEq.congr_right (a := group.key) same
  rw [group?, group?, equal]

/-- A group that is opened has had a row now; the other groups are as before. -/
theorem lastSeen_append
    (handles : List StateHandle)
    (closed : statement.group? key = none) :
    ({ statement with
        groups := statement.groups ++ [⟨key, handles, statement.now⟩] } : Statement).lastSeen other =
      if key == other then some statement.now else statement.lastSeen other := by
  rw [lastSeen, group?, List.find?_append]
  change ((statement.group? other).or _).map _ = _
  split
  next same =>
      have same : key.same other = true := same
      rw [← group?_congr same, closed, Option.none_or, List.find?_cons, same]
      rfl
  next different =>
      have different : key.same other = false := Bool.eq_false_iff.mpr different
      rw [List.find?_cons, different, List.find?_nil, Option.or_none, lastSeen]

/-- The group of a row has had a row now; the other groups are as before. -/
theorem lastSeen_touchGroup :
    (statement.touchGroup key).lastSeen other =
      if key == other then (statement.lastSeen other).map fun _ => statement.now
      else statement.lastSeen other := by
  have keys : ((fun group : OpenGroup => group.key.same other) ∘ fun group : OpenGroup =>
      if group.key.same key then { group with lastUpdate := statement.now } else group) =
        fun group => group.key.same other := by
    funext group
    dsimp only [Function.comp]
    split <;> rfl
  rw [lastSeen, group?, touchGroup, List.find?_map, keys]
  change ((statement.group? other).map _).map _ = _
  rw [lastSeen, Option.map_map, Option.map_map]
  rcases isOpen : statement.group? other with _ | group
  · simp
  · have atOther : (group.key == other) = true := (mem_of_group? isOpen).2
    have isKey : group.key.same key = (key == other) :=
      (BEq.congr_left atOther).trans BEq.comm
    simp only [Option.map_some, Function.comp, isKey]
    split <;> rfl

/-- A group that is open has its handles at its places. -/
theorem Tied.found_of_group?
    {store : StateStore}
    {group : OpenGroup}
    (tied : statement.Tied store)
    (isOpen : statement.group? key = some group) :
    HandlesFound store statement.id key statement.plan.aggregates group.handles := by
  obtain ⟨member, same⟩ := mem_of_group? isOpen
  exact (tied.found group member).imp fun _ _ found =>
    (StateStore.lookup_congr same).symm.trans found

end Groups

/-- Whether two statements differ in their numbers and their groups only. -/
def Matches (first second : Statement) : Prop :=
  second = { first with id := second.id, groups := second.groups }

/-- Whether two statements are twins in two stores, as far as some groups are looked at. -/
structure Twin (visible : GroupKey → Prop) (first : Statement) (store : StateStore)
    (second : Statement) (other : StateStore) : Prop where
  same : first.Matches second
  seen : ∀ key, visible key → first.lastSeen key = second.lastSeen key
  states : StateStore.Alike visible first.id store second.id other
  tied : first.Tied store
  otherTied : second.Tied other
  covered : ∀ held ∈ first.window, visible held.group

namespace Twin

variable {visible : GroupKey → Prop} {first second : Statement} {store other : StateStore}
  {key : GroupKey}

theorem plan (twin : Twin visible first store second other) : second.plan = first.plan := by
  rw [twin.same]

theorem window (twin : Twin visible first store second other) : second.window = first.window := by
  rw [twin.same]

theorem now (twin : Twin visible first store second other) : second.now = first.now := by
  rw [twin.same]

theorem stopped (twin : Twin visible first store second other) :
    second.stopped = first.stopped := by
  rw [twin.same]

theorem symm
    (twin : Twin visible first store second other) :
    Twin visible second other first store where
  same := by rw [Matches, twin.same]
  seen := fun key isVisible => (twin.seen key isVisible).symm
  states := twin.states.symm
  tied := twin.otherTied
  otherTied := twin.tied
  covered := by
    rw [twin.window]
    exact twin.covered

/-- Twins stay twins while their states are changed alike and no handle is moved. -/
theorem of_alike
    {left otherLeft : StateStore}
    (twin : Twin visible first store second other)
    (alike : StateStore.Alike visible first.id left second.id otherLeft)
    (same : ∀ group key, left.lookup first.id group key = store.lookup first.id group key)
    (otherSame :
      ∀ group key, otherLeft.lookup second.id group key = other.lookup second.id group key) :
    Twin visible first left second otherLeft where
  same := twin.same
  seen := twin.seen
  states := alike
  tied := twin.tied.of_lookup same
  otherTied := twin.otherTied.of_lookup otherSame
  covered := twin.covered

/-- A group that is looked at is open in both twins or in none. -/
theorem group?_cases
    (twin : Twin visible first store second other)
    (isVisible : visible key) :
    (first.group? key = none ∧ second.group? key = none) ∨
      ∃ group otherGroup, first.group? key = some group ∧ second.group? key = some otherGroup := by
  have seen := twin.seen key isVisible
  rw [lastSeen, lastSeen] at seen
  rcases isOpen : first.group? key with _ | group <;>
    rcases otherOpen : second.group? key with _ | otherGroup
  · exact .inl ⟨rfl, rfl⟩
  · simp [isOpen, otherOpen] at seen
  · simp [isOpen, otherOpen] at seen
  · exact .inr ⟨group, otherGroup, rfl, rfl⟩

/-- The handles of an open group are at the same places in both stores. -/
theorem samePlaces
    (twin : Twin visible first store second other)
    {group otherGroup : OpenGroup}
    (isOpen : first.group? key = some group)
    (otherOpen : second.group? key = some otherGroup) :
    StateStore.SamePlaces first.id store second.id other key group.handles otherGroup.handles :=
  samePlaces_of_found (twin.tied.found_of_group? isOpen)
    (twin.plan ▸ twin.otherTied.found_of_group? otherOpen)

section Rows

theorem enterAll
    {handles others : List StateHandle}
    (twin : Twin visible first store second other)
    (isVisible : visible key)
    (places : StateStore.SamePlaces first.id store second.id other key handles others)
    (row : Row)
    (occasion otherOccasion : Occasion)
    (entered : Nat) :
    (Statement.enterAll row occasion store entered handles).2 =
        (Statement.enterAll row otherOccasion other entered others).2 ∧
      Twin visible first (Statement.enterAll row occasion store entered handles).1 second
        (Statement.enterAll row otherOccasion other entered others).1 := by
  obtain ⟨told, alike⟩ := alike_enterAll twin.states isVisible places row occasion otherOccasion
    entered
  exact ⟨told, twin.of_alike alike (lookup_enterAll row occasion entered _)
    (lookup_enterAll row otherOccasion entered _)⟩

/-- A row that is pushed out leaves the states of both twins. -/
theorem expireRow
    {expired : WindowRow}
    (twin : Twin visible first store second other)
    (isVisible : visible expired.group)
    (occasion otherOccasion : Occasion) :
    Twin visible first (first.expireRow store expired occasion) second
      (second.expireRow other expired otherOccasion) := by
  have places : StateStore.SamePlaces first.id store second.id other expired.group
      (first.enteredHandles expired) (second.enteredHandles expired) := by
    rw [enteredHandles, enteredHandles]
    obtain ⟨closed, otherClosed⟩ | ⟨group, otherGroup, isOpen, otherOpen⟩ :=
      twin.group?_cases isVisible
    · rw [closed, otherClosed]
      exact .nil
    · rw [isOpen, otherOpen]
      refine List.forall₂_take expired.entered ?_
      rw [distinctHandles, distinctHandles, twin.plan]
      exact samePlaces_filterMap (twin.samePlaces isOpen otherOpen) _
  exact twin.of_alike
    (alike_leaveAll twin.states isVisible places expired.row occasion otherOccasion 0)
    (lookup_leaveAll expired.row occasion 0 _) (lookup_leaveAll expired.row otherOccasion 0 _)

theorem expireRows
    {rows : List WindowRow}
    (twin : Twin visible first store second other)
    (areVisible : ∀ expired ∈ rows, visible expired.group)
    (occasion otherOccasion : Occasion)
    (position : Nat) :
    Twin visible first (first.expireRows occasion store position rows) second
      (second.expireRows otherOccasion other position rows) := by
  induction rows generalizing store other position with
  | nil => exact twin
  | cons expired rest inductionHypothesis =>
      rw [List.forall_mem_cons] at areVisible
      exact inductionHypothesis
        (twin.expireRow areVisible.1 (position :: occasion) (position :: otherOccasion))
        areVisible.2 (position + 1)

/-- Twins stay twins with a new window of groups that are looked at. -/
theorem withWindow
    {window : List WindowRow}
    (twin : Twin visible first store second other)
    (covered : ∀ held ∈ window, visible held.group)
    (running : first.stopped = false) :
    Twin visible { first with window } store { second with window } other where
  same := by rw [Matches, twin.same]
  seen := twin.seen
  states := twin.states
  tied := twin.tied.withWindow running window
  otherTied := twin.otherTied.withWindow (twin.stopped.trans running) window
  covered := covered

/-- The window of both twins slides in the same way. -/
theorem slideWindow
    (twin : Twin visible first store second other)
    (running : first.stopped = false)
    (added : WindowRow)
    (isVisible : visible added.group)
    (occasion otherOccasion : Occasion) :
    Twin visible (first.slideWindow store added occasion).1
      (first.slideWindow store added occasion).2 (second.slideWindow other added otherOccasion).1
      (second.slideWindow other added otherOccasion).2 := by
  have covered : ∀ held ∈ first.window ++ [added], visible held.group :=
    List.forall_mem_append.mpr ⟨twin.covered, List.forall_mem_singleton.mpr isVisible⟩
  have otherSize : second.plan.window = first.plan.window := by rw [twin.plan]
  rcases size : first.plan.window with _ | size
  · simp only [Statement.slideWindow, otherSize, size]
    exact twin
  · simp only [Statement.slideWindow, otherSize, size, twin.window]
    refine (twin.expireRows (fun held member => covered held (List.mem_of_mem_take member))
      occasion otherOccasion 0).withWindow ?_ running
    exact fun held member => covered held (List.mem_of_mem_drop member)

theorem touchGroup
    (twin : Twin visible first store second other)
    (running : first.stopped = false)
    (key : GroupKey) :
    Twin visible (first.touchGroup key) store (second.touchGroup key) other where
  same := by
    rw [Matches, Statement.touchGroup, Statement.touchGroup, twin.same]
  seen := fun group isVisible => by
    rw [lastSeen_touchGroup, lastSeen_touchGroup, twin.seen group isVisible, twin.now]
  states := twin.states
  tied := twin.tied.touch running key
  otherTied := twin.otherTied.touch (twin.stopped.trans running) key
  covered := twin.covered

/-- A row of a group that both twins have open has the same result. -/
theorem aggregateRow
    {group otherGroup : OpenGroup}
    (twin : Twin visible first store second other)
    (isVisible : visible key)
    (steady : first.plan.Steady)
    (running : first.stopped = false)
    (isOpen : first.group? key = some group)
    (otherOpen : second.group? key = some otherGroup)
    (row : Row)
    (occasion otherOccasion : Occasion) :
    (first.aggregateRow store key group.handles row occasion).2.2 =
        (second.aggregateRow other key otherGroup.handles row otherOccasion).2.2 ∧
      Twin visible (first.aggregateRow store key group.handles row occasion).1
        (first.aggregateRow store key group.handles row occasion).2.1
        (second.aggregateRow other key otherGroup.handles row otherOccasion).1
        (second.aggregateRow other key otherGroup.handles row otherOccasion).2.1 := by
  have distinct : StateStore.SamePlaces first.id store second.id other key
      (first.distinctHandles group.handles) (second.distinctHandles otherGroup.handles) := by
    rw [distinctHandles, distinctHandles, twin.plan]
    exact samePlaces_filterMap (twin.samePlaces isOpen otherOpen) _
  obtain ⟨told, grownTwin⟩ := twin.enterAll isVisible distinct row (2 :: occasion)
    (2 :: otherOccasion) 0
  rcases entering : Statement.enterAll row (2 :: occasion) store 0
    (first.distinctHandles group.handles) with ⟨grown, entered, fault⟩
  rcases otherEntering : Statement.enterAll row (2 :: otherOccasion) other 0
    (second.distinctHandles otherGroup.handles) with ⟨otherGrown, otherEntered, otherFault⟩
  rw [entering, otherEntering] at told grownTwin
  cases told
  have slidTwin := grownTwin.slideWindow running ⟨row, key, entered⟩ isVisible (3 :: occasion)
    (3 :: otherOccasion)
  have slides := first.slideWindow_fst grown ⟨row, key, entered⟩ (3 :: occasion)
  have otherSlides := second.slideWindow_fst otherGrown ⟨row, key, entered⟩ (3 :: otherOccasion)
  rcases sliding : first.slideWindow grown ⟨row, key, entered⟩ (3 :: occasion) with ⟨slid, shrunk⟩
  rcases otherSliding : second.slideWindow otherGrown ⟨row, key, entered⟩ (3 :: otherOccasion) with
    ⟨otherSlid, otherShrunk⟩
  rw [sliding] at slidTwin slides
  rw [otherSliding] at slidTwin otherSlides
  obtain rfl : slid = _ := slides
  obtain rfl : otherSlid = _ := otherSlides
  have touched := slidTwin.touchGroup running key
  have results : readAll shrunk first.plan.aggregates group.handles =
      readAll otherShrunk second.plan.aggregates otherGroup.handles := by
    rw [twin.plan]
    exact readAll_eq_of_alike slidTwin.states isVisible (slidTwin.tied.found_of_group? isOpen)
      (twin.plan ▸ slidTwin.otherTied.found_of_group? otherOpen)
  simp only [Statement.aggregateRow, entering, otherEntering, sliding, otherSliding, results]
  cases fault with
  | some fault => exact ⟨rfl, touched⟩
  | none =>
      cases readAll otherShrunk second.plan.aggregates otherGroup.handles with
      | none => exact ⟨rfl, touched⟩
      | some results =>
          refine ⟨?_, touched⟩
          dsimp only
          rw [twin.plan, steady.project]

/-- Both twins open a group that is looked at, or cannot create the same state of it. -/
theorem openGroup
    {rename : String → String}
    (twin : Twin visible first store second other)
    (relabels : first.plan.Relabels rename first.id second.id)
    (running : first.stopped = false)
    (key : GroupKey)
    (isVisible : visible key)
    (occasion otherOccasion : Occasion) :
    (∃ opened obtained group otherOpened otherObtained otherGroup,
      first.openGroup store key occasion = (opened, obtained, .ok group.handles) ∧
        second.openGroup other key otherOccasion =
          (otherOpened, otherObtained, .ok otherGroup.handles) ∧
        opened.group? key = some group ∧ otherOpened.group? key = some otherGroup ∧
        Twin visible opened obtained otherOpened otherObtained) ∨
    ∃ error obtained otherObtained,
      first.openGroup store key occasion = (first, obtained, .error error) ∧
        second.openGroup other key otherOccasion =
          (second, otherObtained, .error (error.relabel rename)) := by
  obtain ⟨closed, otherClosed⟩ | ⟨group, otherGroup, isOpen, otherOpen⟩ :=
    twin.group?_cases isVisible
  · have aggregates : second.plan.aggregates = first.plan.aggregates := by rw [twin.plan]
    obtain ⟨obtained, handles, otherObtained, others, obtaining, otherObtaining, alike⟩ |
      ⟨error, obtained, otherObtained, obtaining, otherObtaining⟩ :=
      alike_obtainAll twin.states isVisible relabels.steady.aggregates relabels.handlers occasion
        otherOccasion 0
    · have opening : first.openGroup store key occasion =
          ({ first with groups := first.groups ++ [⟨key, handles, first.now⟩] }, obtained,
            .ok handles) := by
        simp only [Statement.openGroup, closed, obtaining]
      have otherOpening : second.openGroup other key otherOccasion =
          ({ second with groups := second.groups ++ [⟨key, others, second.now⟩] }, otherObtained,
            .ok others) := by
        simp only [Statement.openGroup, otherClosed, aggregates, otherObtaining]
      obtain ⟨group, isOpen, isHandles⟩ := group?_of_openGroup opening
      obtain ⟨otherGroup, otherOpen, areOthers⟩ := group?_of_openGroup otherOpening
      refine .inl ⟨_, obtained, group, _, otherObtained, otherGroup, isHandles ▸ opening,
        areOthers ▸ otherOpening, isOpen, otherOpen, ?_⟩
      exact {
        same := by
          rw [Matches, twin.same]
        seen := fun group groupVisible => by
          rw [lastSeen_append handles closed, lastSeen_append others otherClosed,
            twin.seen group groupVisible, twin.now]
        states := alike
        tied := twin.tied.open twin.states.sound running closed opening
        otherTied := twin.otherTied.open twin.states.otherSound (twin.stopped.trans running)
          otherClosed otherOpening
        covered := twin.covered }
    · refine .inr ⟨error, obtained, otherObtained, ?_, ?_⟩
      · simp only [Statement.openGroup, closed, obtaining]
      · simp only [Statement.openGroup, otherClosed, aggregates, otherObtaining]
  · exact .inl ⟨first, store, group, second, other, otherGroup, openGroup_of_open isOpen,
      openGroup_of_open otherOpen, isOpen, otherOpen, twin⟩

/-- A row has the same result in both twins, or stops both with the same error. -/
theorem evaluateRow
    {rename : String → String}
    (twin : Twin visible first store second other)
    (relabels : first.plan.Relabels rename first.id second.id)
    (running : first.stopped = false)
    (row : Row)
    (occasion otherOccasion : Occasion)
    (isVisible : ∀ key, first.plan.select? row occasion = .ok (some key) → visible key) :
    (∃ result changed updated otherChanged otherUpdated,
      first.evaluateRow store row occasion = (changed, updated, .ok result) ∧
        second.evaluateRow other row otherOccasion = (otherChanged, otherUpdated, .ok result) ∧
        Twin visible changed updated otherChanged otherUpdated) ∨
    ∃ error updated otherUpdated,
      first.evaluateRow store row occasion = (first, updated, .error error) ∧
        second.evaluateRow other row otherOccasion =
          (second, otherUpdated, .error (error.relabel rename)) := by
  have selects : second.plan.select? row otherOccasion = first.plan.select? row occasion := by
    rw [twin.plan, relabels.steady.select? row otherOccasion occasion]
  rcases selecting : first.plan.select? row occasion with fault | _ | key
  · refine .inl ⟨.faulted fault, first, store, second, other, ?_, ?_, twin⟩
    · simp only [Statement.evaluateRow, selecting]
    · simp only [Statement.evaluateRow, selects, selecting]
  · refine .inl ⟨.filtered, first, store, second, other, ?_, ?_, twin⟩
    · simp only [Statement.evaluateRow, selecting]
    · simp only [Statement.evaluateRow, selects, selecting]
  · have projects : second.plan.project row otherOccasion = first.plan.project row occasion := by
      rw [twin.plan, relabels.steady.project row otherOccasion occasion]
    have otherAggregates : second.plan.aggregates.isEmpty = first.plan.aggregates.isEmpty := by
      rw [twin.plan]
    cases aggregates : first.plan.aggregates.isEmpty with
    | true =>
        rw [aggregates] at otherAggregates
        refine .inl ⟨first.plan.project row occasion, first, store, second, other, ?_, ?_, twin⟩
        · simp only [Statement.evaluateRow, selecting, aggregates, if_true]
        · simp only [Statement.evaluateRow, selects, selecting, otherAggregates, if_true, projects]
    | false =>
        rw [aggregates] at otherAggregates
        obtain ⟨opened, obtained, group, otherOpened, otherObtained, otherGroup, opening,
          otherOpening, isOpen, otherOpen, openedTwin⟩ |
          ⟨error, obtained, otherObtained, opening, otherOpening⟩ :=
          twin.openGroup relabels running key (isVisible key selecting) (5 :: occasion)
            (5 :: otherOccasion)
        · obtain ⟨stillRunning, moves⟩ := moves_openGroup running opening
          obtain ⟨sameResult, aggregated⟩ := openedTwin.aggregateRow (isVisible key selecting)
            (moves.same.2 ▸ relabels.steady) stillRunning isOpen otherOpen row occasion
            otherOccasion
          refine .inl ⟨(opened.aggregateRow obtained key group.handles row occasion).2.2, _, _, _, _,
            ?_, ?_, aggregated⟩
          · simp only [Statement.evaluateRow, selecting, aggregates, opening]
            rfl
          · simp only [Statement.evaluateRow, selects, selecting, otherAggregates, otherOpening,
              sameResult]
            rfl
        · refine .inr ⟨error, obtained, otherObtained, ?_, ?_⟩
          · simp only [Statement.evaluateRow, selecting, aggregates, opening]
            rfl
          · simp only [Statement.evaluateRow, selects, selecting, otherAggregates, otherOpening]
            rfl

end Rows

end Twin

end Statement

end EventQuery
