import EventQuery.Proofs.Pattern.Performing
import EventQuery.Proofs.Pattern.Stepping

namespace EventQuery

/-!
# An event followed by another

The pattern that starts anew with every event of one kind and then waits for an event of another
kind has one filter that starts matches and one filter for each match that was started.  This module
follows the engine of such a pattern through the tasks of one call.
-/

/-- Whether a predicate holds on a row.  One that faults does not hold. -/
def Node.holds (predicate : Option Node) (row : Row) : Bool :=
  match predicate with
  | none => true
  | some condition =>
      match condition.passes row [] with
      | .ok passes => passes
      | .error _ => false

namespace CompiledPattern

/-- A pattern that starts anew with every event of one type, each followed by one of another. -/
structure FollowedBy
    (compiled : CompiledPattern)
    (firstType secondType : String)
    (first second : Option Node) : Prop where
  nodes :
    compiled.nodes =
      [.sequence 1 3, .every 2, .filter firstType (some 0) first,
        .filter secondType (some 1) second]
  width : compiled.width = 2

end CompiledPattern

namespace Engine

/-- A started match: its filter, the number of that filter, and the event that started it. -/
structure Started where
  ticket : Ticket
  created : Nat
  event : Event

/-- The bindings of the pattern before it starts. -/
def unbound : Row := [.null, .null]

/-- The filter that starts matches. -/
def starterState (parent : Ticket) (created : Nat) : PatternState :=
  ⟨2, some parent, created, unbound, .filter⟩

/-- The filter of a started match. -/
def startedState (parent : Ticket) (created : Nat) (event : Event) : PatternState :=
  ⟨3, some parent, created, [.event event, .null], .filter⟩

/--
The engine of the pattern in the middle of a call: the operators at the top, the filter that starts
matches as long as it waits, and the filters of the matches that were started.  An operator may list
one operand that is already gone, or one that does not wait yet.
-/
structure Follows
    (compiled : CompiledPattern)
    (limit patience : Nat)
    (engine : Engine)
    (top each : Ticket)
    (running : Option Ticket)
    (rights : List Ticket)
    (starter : Option (Ticket × Nat))
    (started : List Started) : Prop where
  pattern : engine.pattern = compiled
  limit : engine.limit = limit
  patience : engine.patience = patience
  sound : engine.states.Sound
  root : engine.root = some top
  topLive :
    ∃ created, engine.states.get? top =
      some ⟨0, none, created, unbound, .sequence (some each) rights⟩
  eachLive :
    ∃ created, engine.states.get? each = some ⟨1, some top, created, unbound, .every running⟩
  starterLive :
    ∀ entry ∈ starter, engine.states.get? entry.1 = some (starterState each entry.2)
  startedLive :
    ∀ entry ∈ started,
      engine.states.get? entry.ticket = some (startedState top entry.created entry.event)
  ascending : started.Pairwise fun earlier later => earlier.created < later.created
  older : ∀ entry ∈ started, entry.created < engine.next
  filters :
    engine.filters =
      starter.toList.map (fun entry => (⟨2, entry.2⟩, entry.1)) ++
        started.map fun entry => (⟨3, entry.created⟩, entry.ticket)
  leaves : engine.leaves = starter.toList.length + started.length

namespace Follows

variable {compiled : CompiledPattern} {firstType secondType : String}
  {first second : Option Node} {limit patience : Nat} {engine : Engine} {top each : Ticket}
  {running : Option Ticket} {rights : List Ticket} {starter : Option (Ticket × Nat)}
  {started : List Started}

section Frame

theorem withOutcome
    (follows : Follows compiled limit patience engine top each running rights starter started)
    (agenda : List Task)
    (completed : List Row)
    (faults : List Fault) :
    Follows compiled limit patience { engine with agenda, completed, faults } top each running
      rights starter started :=
  { follows with }

theorem create
    (follows : Follows compiled limit patience engine top each running rights starter started)
    (number : Nat)
    (parent : Option Ticket)
    (bindings : Row) :
    Follows compiled limit patience (engine.create number parent bindings).1 top each running
      rights starter started where
  pattern := follows.pattern
  limit := follows.limit
  patience := follows.patience
  sound := follows.sound.insert _
  root := follows.root
  topLive := follows.topLive.imp fun _ live => get?_create_of_live follows.sound _ _ _ live
  eachLive := follows.eachLive.imp fun _ live => get?_create_of_live follows.sound _ _ _ live
  starterLive := fun entry member =>
    get?_create_of_live follows.sound _ _ _ (follows.starterLive entry member)
  startedLive := fun entry member =>
    get?_create_of_live follows.sound _ _ _ (follows.startedLive entry member)
  ascending := follows.ascending
  older := fun entry member => Nat.lt_succ_of_lt (follows.older entry member)
  filters := follows.filters
  leaves := follows.leaves

private theorem get?_update_other
    {changed ticket : Ticket}
    {state other : PatternState}
    (changedLive : engine.states.get? changed = some state)
    (live : engine.states.get? ticket = some other)
    (different : other.node ≠ state.node)
    (change : Progress → Progress) :
    (engine.update changed change).states.get? ticket = some other := by
  rw [get?_update, if_neg, live]
  intro same
  subst same
  cases live.symm.trans changedLive
  exact different rfl

/-- The operator `every` changes what it runs. -/
theorem updateEach
    (follows : Follows compiled limit patience engine top each running rights starter started)
    (change : Progress → Progress)
    (now : Option Ticket)
    (changes : change (.every running) = .every now) :
    Follows compiled limit patience (engine.update each change) top each now rights starter
      started := by
  obtain ⟨created, eachLive⟩ := follows.eachLive
  have others : ∀ {ticket : Ticket} {other : PatternState},
      engine.states.get? ticket = some other → other.node ≠ 1 →
        (engine.update each change).states.get? ticket = some other :=
    fun live different => get?_update_other eachLive live different change
  exact
    { pattern := follows.pattern
      limit := follows.limit
      patience := follows.patience
      sound := follows.sound.modify _ _
      root := follows.root
      topLive := follows.topLive.imp fun _ live => others live (by simp)
      eachLive := ⟨created, by
        rw [get?_update_self eachLive, PatternState.advance, changes]⟩
      starterLive := fun entry member =>
        others (follows.starterLive entry member) (by simp [starterState])
      startedLive := fun entry member =>
        others (follows.startedLive entry member) (by simp [startedState])
      ascending := follows.ascending
      older := follows.older
      filters := follows.filters
      leaves := follows.leaves }

/-- The sequence changes what it runs on its right. -/
theorem updateTop
    (follows : Follows compiled limit patience engine top each running rights starter started)
    (change : Progress → Progress)
    (now : List Ticket)
    (changes : change (.sequence (some each) rights) = .sequence (some each) now) :
    Follows compiled limit patience (engine.update top change) top each running now starter
      started := by
  obtain ⟨created, topLive⟩ := follows.topLive
  have others : ∀ {ticket : Ticket} {other : PatternState},
      engine.states.get? ticket = some other → other.node ≠ 0 →
        (engine.update top change).states.get? ticket = some other :=
    fun live different => get?_update_other topLive live different change
  exact
    { pattern := follows.pattern
      limit := follows.limit
      patience := follows.patience
      sound := follows.sound.modify _ _
      root := follows.root
      topLive := ⟨created, by
        rw [get?_update_self topLive, PatternState.advance, changes]⟩
      eachLive := follows.eachLive.imp fun _ live => others live (by simp)
      starterLive := fun entry member =>
        others (follows.starterLive entry member) (by simp [starterState])
      startedLive := fun entry member =>
        others (follows.startedLive entry member) (by simp [startedState])
      ascending := follows.ascending
      older := follows.older
      filters := follows.filters
      leaves := follows.leaves }

end Frame

section Filters

private theorem drop_filter
    {state : PatternState}
    (isFilter : state.progress = .filter)
    (states : Pool PatternState) :
    engine.drop state states =
      { engine with
        states
        filters := engine.filters.erase ⟨state.node, state.created⟩
        leaves :=
          if engine.filters.contains ⟨state.node, state.created⟩ then engine.leaves - 1
          else engine.leaves } := by
  simp only [drop, unlist, isFilter]

private theorem get?_take_other
    {ticket other : Ticket}
    {state held : PatternState}
    {states : Pool PatternState}
    (took : engine.states.take ticket = some (state, states))
    (live : engine.states.get? other = some held)
    (different : held ≠ state) :
    states.get? other = some held := by
  rw [Pool.get?_take took, if_neg, live]
  intro same
  subst same
  exact different (Option.some.inj (live.symm.trans (Pool.get?_of_take took)))

/-- The filter that starts matches is dropped. -/
theorem dropStarter
    {entry : Ticket × Nat}
    (follows :
      Follows compiled limit patience engine top each running rights (some entry) started)
    {states : Pool PatternState}
    (took : engine.states.take entry.1 = some (starterState each entry.2, states)) :
    Follows compiled limit patience (engine.drop (starterState each entry.2) states) top each
      running rights none started := by
  rw [drop_filter rfl]
  have isRank : engine.filters =
      (⟨2, entry.2⟩, entry.1) :: started.map fun entry => (⟨3, entry.created⟩, entry.ticket) :=
    follows.filters
  exact
    { pattern := follows.pattern
      limit := follows.limit
      patience := follows.patience
      sound := follows.sound.take took
      root := follows.root
      topLive := follows.topLive.imp fun _ live =>
        get?_take_other took live (by simp [starterState])
      eachLive := follows.eachLive.imp fun _ live =>
        get?_take_other took live (by simp [starterState])
      starterLive := by simp
      startedLive := fun entry member =>
        get?_take_other took (follows.startedLive entry member)
          (by simp [starterState, startedState])
      ascending := follows.ascending
      older := follows.older
      filters := by
        change engine.filters.erase ⟨2, entry.2⟩ = _
        rw [isRank, StateIndex.erase_cons_self, StateIndex.erase_eq_self]
        · rfl
        · intro waiting member
          obtain ⟨entry, _, isEntry⟩ := List.mem_map.mp member
          simp [← isEntry]
      leaves := by
        have contained : engine.filters.contains ⟨2, entry.2⟩ = true := by
          simp [isRank, StateIndex.contains]
        have counted := follows.leaves
        simp only [Option.toList_some, List.length_singleton] at counted
        change (if engine.filters.contains ⟨2, entry.2⟩ = true then _ else _) = 0 + _
        rw [if_pos contained]
        omega }

theorem created_ne
    {entry other : Started}
    {before after : List Started}
    (follows :
      Follows compiled limit patience engine top each running rights starter
        (before ++ entry :: after))
    (member : other ∈ before ++ after) :
    other.created ≠ entry.created := by
  obtain ⟨_, entryFirst, beforeAll⟩ := List.pairwise_append.mp follows.ascending
  rcases List.mem_append.mp member with isBefore | isAfter
  · exact Nat.ne_of_lt (beforeAll other isBefore entry (by simp))
  · exact Nat.ne_of_gt ((List.pairwise_cons.mp entryFirst).1 other isAfter)

/-- Without the ticket of one started match the tickets of all others are left. -/
theorem tickets_without
    {entry : Started}
    {before after : List Started}
    (follows :
      Follows compiled limit patience engine top each running rights starter
        (before ++ entry :: after)) :
    ((before ++ entry :: after).map Started.ticket).filter (fun right => right != entry.ticket) =
      (before ++ after).map Started.ticket := by
  have apart : ∀ other ∈ before ++ after, other.ticket ≠ entry.ticket := by
    intro other member same
    have otherLive := follows.startedLive other (by
      rcases List.mem_append.mp member with isBefore | isAfter
      · exact List.mem_append_left _ isBefore
      · exact List.mem_append_right _ (List.mem_cons_of_mem _ isAfter))
    rw [same, follows.startedLive entry (by simp)] at otherLive
    have same := congrArg PatternState.created (Option.some.inj otherLive)
    exact follows.created_ne member same.symm
  have keeps : ∀ {others : List Started}, (∀ other ∈ others, other ∈ before ++ after) →
      (others.map Started.ticket).filter (fun right => right != entry.ticket) =
        others.map Started.ticket := by
    intro others among
    refine List.filter_eq_self.mpr fun ticket member => ?_
    obtain ⟨other, inOthers, isTicket⟩ := List.mem_map.mp member
    have different := apart other (among other inOthers)
    simp [← isTicket, different]
  rw [List.map_append, List.map_cons, List.filter_append,
    List.filter_cons_of_neg (by simp), keeps fun _ member => List.mem_append_left _ member,
    keeps fun _ member => List.mem_append_right _ member, List.map_append]

/-- The filter of a started match is dropped. -/
theorem dropStarted
    {entry : Started}
    {before after : List Started}
    (follows :
      Follows compiled limit patience engine top each running rights starter
        (before ++ entry :: after))
    {states : Pool PatternState}
    (took :
      engine.states.take entry.ticket =
        some (startedState top entry.created entry.event, states)) :
    Follows compiled limit patience
      (engine.drop (startedState top entry.created entry.event) states) top each running rights
      starter (before ++ after) := by
  rw [drop_filter rfl]
  have inBoth : ∀ {other : Started}, other ∈ before ++ after →
      other ∈ before ++ entry :: after := by
    intro other member
    rcases List.mem_append.mp member with isBefore | isAfter
    · exact List.mem_append_left _ isBefore
    · exact List.mem_append_right _ (List.mem_cons_of_mem _ isAfter)
  exact
    { pattern := follows.pattern
      limit := follows.limit
      patience := follows.patience
      sound := follows.sound.take took
      root := follows.root
      topLive := follows.topLive.imp fun _ live =>
        get?_take_other took live (by simp [startedState])
      eachLive := follows.eachLive.imp fun _ live =>
        get?_take_other took live (by simp [startedState])
      starterLive := fun entry member =>
        get?_take_other took (follows.starterLive entry member)
          (by simp [starterState, startedState])
      startedLive := fun other member =>
        get?_take_other took (follows.startedLive other (inBoth member)) (by
          have apart := follows.created_ne member
          simp [startedState, apart])
      ascending := follows.ascending.sublist
        (List.Sublist.append_left (List.sublist_cons_self _ _) _)
      older := fun other member => follows.older other (inBoth member)
      filters := by
        have absent : ∀ {others : List Started}, (∀ other ∈ others, other ∈ before ++ after) →
            StateIndex.erase (others.map fun entry => (⟨3, entry.created⟩, entry.ticket))
                ⟨3, entry.created⟩ =
              others.map fun entry => (⟨3, entry.created⟩, entry.ticket) := by
          intro others among
          refine StateIndex.erase_eq_self fun waiting member => ?_
          obtain ⟨other, inOthers, isOther⟩ := List.mem_map.mp member
          have apart := follows.created_ne (among other inOthers)
          simp [← isOther, apart]
        change engine.filters.erase ⟨3, entry.created⟩ = _
        rw [follows.filters, StateIndex.erase_append, List.map_append, StateIndex.erase_append,
          List.map_cons, StateIndex.erase_cons_self,
          absent fun _ member => List.mem_append_left _ member,
          absent fun _ member => List.mem_append_right _ member, StateIndex.erase_eq_self,
          List.map_append]
        intro waiting member
        obtain ⟨other, _, isOther⟩ := List.mem_map.mp member
        simp [← isOther]
      leaves := by
        have contained : engine.filters.contains ⟨3, entry.created⟩ = true := by
          rw [follows.filters]
          simp [StateIndex.contains]
        have counted := follows.leaves
        simp only [List.length_append, List.length_cons] at counted
        change (if engine.filters.contains ⟨3, entry.created⟩ = true then _ else _) = _
        rw [if_pos contained, List.length_append]
        omega }

/-- The filter that starts matches begins to wait, in front of all others. -/
theorem awaitStarter
    (follows : Follows compiled limit patience engine top each running rights none started)
    {ticket : Ticket}
    {created : Nat}
    (live : engine.states.get? ticket = some (starterState each created)) :
    Follows compiled limit patience (engine.await ticket (starterState each created)) top each
      running rights (some (ticket, created)) started :=
  { follows with
    starterLive := by
      intro entry member
      cases member
      exact live
    filters := by
      change engine.filters.insert ⟨2, created⟩ ticket = _
      rw [StateIndex.insert_of_before, follows.filters]
      · rfl
      · intro waiting member
        rw [follows.filters] at member
        obtain ⟨entry, _, isEntry⟩ := List.mem_map.mp member
        rw [Rank.before_iff, ← isEntry]
        exact .inl (by simp)
    leaves := by
      change engine.leaves + 1 = 1 + _
      rw [follows.leaves, Option.toList_none, List.length_nil]
      omega }

/-- The filter of a started match begins to wait, behind all others. -/
theorem awaitStarted
    (follows : Follows compiled limit patience engine top each running rights starter started)
    {ticket : Ticket}
    {created : Nat}
    {event : Event}
    (live : engine.states.get? ticket = some (startedState top created event))
    (later : ∀ entry ∈ started, entry.created < created)
    (older : created < engine.next) :
    Follows compiled limit patience (engine.await ticket (startedState top created event)) top
      each running rights starter (started ++ [⟨ticket, created, event⟩]) :=
  { follows with
    startedLive := by
      intro entry member
      rcases List.mem_append.mp member with old | isNew
      · exact follows.startedLive entry old
      · cases List.mem_singleton.mp isNew
        exact live
    ascending := by
      refine List.pairwise_append.mpr ⟨follows.ascending, List.pairwise_singleton _ _, ?_⟩
      intro entry member other isNew
      cases List.mem_singleton.mp isNew
      exact later entry member
    older := by
      intro entry member
      rcases List.mem_append.mp member with old | isNew
      · exact follows.older entry old
      · cases List.mem_singleton.mp isNew
        exact older
    filters := by
      change engine.filters.insert ⟨3, created⟩ ticket = _
      have behind : ∀ waiting ∈ engine.filters,
          Rank.before waiting.1 ⟨3, created⟩ = true := by
        intro waiting member
        rw [follows.filters] at member
        rw [Rank.before_iff]
        rcases List.mem_append.mp member with isStarter | isStarted
        · obtain ⟨entry, _, isEntry⟩ := List.mem_map.mp isStarter
          rw [← isEntry]
          exact .inl (by simp)
        · obtain ⟨entry, inStarted, isEntry⟩ := List.mem_map.mp isStarted
          rw [← isEntry]
          exact .inr ⟨rfl, later entry inStarted⟩
      have inserted := StateIndex.insert_append behind ticket []
      rw [List.append_nil] at inserted
      rw [inserted, follows.filters, List.map_append, List.append_assoc]
      rfl
    leaves := by
      change engine.leaves + 1 = _
      rw [follows.leaves, List.length_append]
      rfl }

end Filters

end Follows

end Engine

end EventQuery
