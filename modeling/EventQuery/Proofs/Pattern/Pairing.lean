import EventQuery.Proofs.Pattern.FollowedBy
import EventQuery.Proofs.Pattern.Listing
import EventQuery.Proofs.Pattern.WellFormed

namespace EventQuery

/-!
# Pairing events

A machine that pairs events keeps the events that still wait for their partner.  The engine of a
pattern in which every event of one type is to be followed by one of another type hands out what
that machine hands out, whatever events it is shown.
-/

/-- Show events to a machine, one after another: where it ends, and what it yields for each. -/
def feed {State : Type} (machine : State → Event → State × List Row) (state : State) :
    List Event → State × List (List Row)
  | [] => (state, [])
  | event :: rest =>
      let next := machine state event
      let last := feed machine next.1 rest
      (last.1, next.2 :: last.2)

/-- Which events are paired: their types, the most that may wait, and the conditions on them. -/
structure EventPairing where
  firstType : String
  secondType : String
  limit : Nat
  starts : Event → Bool
  completes : Event → Event → Bool

namespace EventPairing

/-- The pending events that an event completes. -/
def completed (pairing : EventPairing) (pending : List Event) (event : Event) : List Event :=
  if pairing.secondType = event.kind then
    pending.filter fun earlier => pairing.completes earlier event
  else []

/-- The pending events that an event leaves. -/
def left (pairing : EventPairing) (pending : List Event) (event : Event) : List Event :=
  if pairing.secondType = event.kind then
    pending.filter fun earlier => !pairing.completes earlier event
  else pending

/-- An event itself, when it is to wait for a partner and there is room. -/
def started (pairing : EventPairing) (pending : List Event) (event : Event) : List Event :=
  if pairing.firstType = event.kind ∧ pairing.starts event ∧ pending.length < pairing.limit then
    [event]
  else []

/-- The pending events after an event, and the matches that it completes. -/
def next (pairing : EventPairing) (pending : List Event) (event : Event) : List Event × List Row :=
  (pairing.left pending event ++ pairing.started pending event,
    (pairing.completed pending event).map fun earlier => [.event earlier, .event event])

theorem length_next_le
    (pairing : EventPairing)
    {pending : List Event}
    (withinLimit : pending.length ≤ pairing.limit)
    (event : Event) :
    (pairing.next pending event).1.length ≤ min pairing.limit (pending.length + 1) := by
  have leftOver : (pairing.left pending event).length ≤ pending.length := by
    unfold left
    split
    · exact List.length_filter_le _ _
    · exact Nat.le_refl _
  have startsOne : (pairing.started pending event).length ≤ 1 ∧
      (pairing.started pending event ≠ [] → pending.length < pairing.limit) := by
    unfold started
    split
    next room => exact ⟨Nat.le_refl _, fun _ => room.2.2⟩
    next => exact ⟨Nat.zero_le _, fun nonempty => absurd rfl nonempty⟩
  rw [next, List.length_append]
  cases isStarted : pairing.started pending event with
  | nil =>
      rw [List.length_nil]
      omega
  | cons =>
      rw [isStarted] at startsOne
      have room := startsOne.2 (List.cons_ne_nil _ _)
      have single := startsOne.1
      omega

end EventPairing

namespace CompiledPattern

variable {compiled : CompiledPattern} {firstType secondType : String}
  {first second : Option Node}

/-- The pairing that a pattern asks for: a condition that faults does not hold. -/
def pairing
    (firstType secondType : String)
    (first second : Option Node)
    (limit : Nat) : EventPairing where
  firstType
  secondType
  limit
  starts := fun event => Node.holds first [.null, .null, .event event]
  completes := fun earlier event => Node.holds second [.event earlier, .null, .event event]

private theorem collectFrom_newTag
    {schema : Schema}
    {number : Nat}
    {known tags : List Tag}
    {tag eventType : String}
    {predicate : Option Expr}
    (success :
      Tag.collectFrom schema number [] known (.filter ⟨some tag, eventType, predicate⟩) = .ok tags)
    (isNew : Tag.find? known tag = none) :
    tags = known ++ [⟨tag, eventType, known.length, []⟩] := by
  rcases Tag.collectFrom_filter success with ⟨untagged, _⟩ | ⟨name, isTag, declares⟩
  · cases untagged
  · cases isTag
    rw [Tag.declare, isNew] at declares
    exact (Except.ok.inj declares).symm

private theorem exists_predicate
    {schema : Schema}
    {tags : List Tag}
    {tag eventType : String}
    {predicate : Option Expr}
    {node : PatternNode}
    (success : compileFilter schema tags [] ⟨some tag, eventType, predicate⟩ = .ok node)
    (found : Tag)
    (isTag : Tag.find? tags tag = some found) :
    ∃ bound, node = .filter eventType (some found.slot) bound := by
  unfold compileFilter at success
  rw [Option.bind_some, isTag, Option.map_some] at success
  cases predicate with
  | none =>
      cases success
      exact ⟨none, rfl⟩
  | some expr =>
      obtain ⟨bound, _, isNode⟩ := ok_of_bind success
      cases isNode
      exact ⟨some bound, rfl⟩

/-- Compiled, the pattern has the two filters below its two operators. -/
theorem followedBy_of_compile
    {schema : Schema}
    {firstTag secondTag : String}
    {firstPredicate secondPredicate : Option Expr}
    (success :
      compile schema
        (.sequence (.every (.filter ⟨some firstTag, firstType, firstPredicate⟩))
          (.filter ⟨some secondTag, secondType, secondPredicate⟩)) = .ok compiled)
    (different : firstTag ≠ secondTag) :
    ∃ first second : Option Node,
      compileFilter schema compiled.tags [] ⟨some firstTag, firstType, firstPredicate⟩ =
          .ok (.filter firstType (some 0) first) ∧
        compileFilter schema compiled.tags [] ⟨some secondTag, secondType, secondPredicate⟩ =
          .ok (.filter secondType (some 1) second) ∧
        compiled.FollowedBy firstType secondType first second := by
  rw [compile_eq] at success
  obtain ⟨tags, collects, compiles⟩ := ok_of_bind success
  obtain ⟨nodes, compilesNodes, isCompiled⟩ := ok_of_bind compiles
  cases isCompiled
  rw [Tag.collectFrom, Tag.collectFrom] at collects
  obtain ⟨_, collectsFirst, collectsSecond⟩ := ok_of_bind collects
  cases collectFrom_newTag collectsFirst rfl
  have isTags := collectFrom_newTag collectsSecond (by simp [Tag.find?, different])
  cases isTags
  rw [compileFrom, compileFrom, compileFrom] at compilesNodes
  obtain ⟨_, compilesLeft, compilesRest⟩ := ok_of_bind compilesNodes
  obtain ⟨_, compilesFirst, isLeft⟩ := ok_of_bind compilesLeft
  obtain ⟨left, compilesLeaf, isLeaf⟩ := ok_of_bind compilesFirst
  cases isLeaf
  cases isLeft
  obtain ⟨_, compilesRight, isNodes⟩ := ok_of_bind compilesRest
  rw [compileFrom] at compilesRight
  obtain ⟨right, compilesSecond, isRight⟩ := ok_of_bind compilesRight
  cases isRight
  cases isNodes
  obtain ⟨first, isFirst⟩ := exists_predicate compilesLeaf ⟨firstTag, firstType, 0, []⟩
    (by simp [Tag.find?])
  obtain ⟨second, isSecond⟩ := exists_predicate compilesSecond ⟨secondTag, secondType, 1, []⟩
    (by simp [Tag.find?, different])
  subst isFirst isSecond
  exact ⟨first, second, compilesLeaf, compilesSecond, rfl, rfl⟩

end CompiledPattern

namespace Engine

variable {compiled : CompiledPattern} {firstType secondType : String}
  {first second : Option Node} {limit patience : Nat} {pending : List Event} {engine : Engine}

/-- The engine between two calls, when the pending events have each started a match. -/
def Pending
    (compiled : CompiledPattern)
    (limit patience : Nat)
    (pending : List Event)
    (engine : Engine) : Prop :=
  ∃ (top each : Ticket) (starter : Ticket × Nat) (started : List Started),
    Stage compiled limit patience engine top each (some starter.1)
        (started.map Started.ticket) (some starter) started [] [] ∧
      started.map Started.event = pending

/-- The engine of the pattern when it begins to start. -/
private def opening (compiled : CompiledPattern) (limit patience : Nat) (now : Int) : Engine :=
  { idle compiled limit patience now with
    states := ⟨#[⟨0, some ⟨0, none, 0, unbound, .sequence none []⟩⟩], []⟩
    next := 1
    root := some ⟨0, 0⟩
    agenda := [.activate ⟨0, 0⟩] }

/-- The engine of the pattern starts from there. -/
private theorem start_eq_settle_opening
    (pattern : compiled.FollowedBy firstType secondType first second)
    (limit patience : Nat)
    (now : Int) :
    start compiled limit patience now = (opening compiled limit patience now).settle := by
  obtain ⟨nodes, tags⟩ := compiled
  obtain ⟨isNodes, isWidth⟩ := pattern
  cases isNodes
  have isUnbound : List.replicate tags.length Value.null = unbound :=
    congrArg (List.replicate · Value.null) isWidth
  unfold start
  dsimp only [CompiledPattern.width]
  rw [isUnbound]
  rfl

/-- The engine of the pattern once it waits. -/
private def waiting (compiled : CompiledPattern) (limit patience : Nat) (now : Int) : Engine :=
  { idle compiled limit patience now with
    states :=
      ⟨#[⟨0, some ⟨0, none, 0, unbound, .sequence (some ⟨1, 0⟩) []⟩⟩,
        ⟨0, some ⟨1, some ⟨0, 0⟩, 1, unbound, .every (some ⟨2, 0⟩)⟩⟩,
        ⟨0, some (starterState ⟨1, 0⟩ 2)⟩], []⟩
    next := 3
    root := some ⟨0, 0⟩
    filters := [(⟨2, 2⟩, ⟨2, 0⟩)]
    leaves := 1 }

/-- Three steps start the operators and the filter that starts matches. -/
private theorem iterate_step_opening
    (pattern : compiled.FollowedBy firstType secondType first second)
    (limit patience : Nat)
    (now : Int) :
    step^[3] (opening compiled limit patience now) = waiting compiled limit patience now := by
  obtain ⟨nodes, tags⟩ := compiled
  obtain ⟨isNodes, _⟩ := pattern
  cases isNodes
  rfl

/-- An engine is started without pending events. -/
theorem pending_start
    (pattern : compiled.FollowedBy firstType secondType first second)
    (limit : Nat)
    (enough : 3 ≤ patience)
    (now : Int) :
    (start compiled limit patience now).isAtRest = true ∧
      Pending compiled limit patience [] (start compiled limit patience now) := by
  rw [start_eq_settle_opening pattern]
  have reaches : Reaches 3 (opening compiled limit patience now) fun reached =>
      reached.isAtRest = true ∧ Pending compiled limit patience [] reached := by
    refine ⟨3, Nat.le_refl _, ?_⟩
    rw [iterate_step_opening pattern]
    refine ⟨rfl, ⟨0, 0⟩, ⟨1, 0⟩, (⟨2, 0⟩, 2), [], ⟨?_, rfl, rfl⟩, rfl⟩
    exact
      { pattern := rfl
        limit := rfl
        patience := rfl
        sound := Pool.sound_of_full rfl
        root := rfl
        topLive := ⟨0, Pool.get?_eq_some_iff.mpr rfl⟩
        eachLive := ⟨1, Pool.get?_eq_some_iff.mpr rfl⟩
        starterLive := by
          intro entry isEntry
          cases isEntry
          exact Pool.get?_eq_some_iff.mpr rfl
        startedLive := by simp
        ascending := .nil
        older := by simp
        filters := rfl
        leaves := rfl }
  exact reaches.settle enough

private theorem reaches_started
    (pattern : compiled.FollowedBy firstType secondType first second)
    {top each : Ticket}
    {starter : Ticket × Nat}
    {entries : List Started}
    {event : Event}
    {rest : List Task}
    (stage :
      Stage compiled limit patience engine top each (some starter.1)
        (entries.map Started.ticket) (some starter) entries
        ((if firstType = event.kind then [.offer starter.1 event] else []) ++ rest) []) :
    Reaches 6 engine fun later =>
      ∃ (again : Ticket × Nat) (new : List Started),
        Stage compiled limit patience later top each (some again.1)
            ((entries ++ new).map Started.ticket) (some again) (entries ++ new) rest [] ∧
          new.map Started.event =
            (CompiledPattern.pairing firstType secondType first second limit).started
              (entries.map Started.event) event := by
  by_cases isFirst : firstType = event.kind
  · rw [if_pos isFirst] at stage
    refine (Stage.offerStarter pattern stage).imp ?_
    rintro later ⟨again, new, reached, isNew⟩
    refine ⟨again, new, reached, isNew.trans (if_congr ?_ rfl rfl)⟩
    simp [CompiledPattern.pairing, isFirst, unbound]
  · rw [if_neg isFirst] at stage
    refine (Reaches.now ⟨starter, [], ?_, ?_⟩).mono (Nat.zero_le _)
    · simpa using stage
    · simp [EventPairing.started, CompiledPattern.pairing, isFirst]

/-- The filters of the started matches are shown an event of their type. -/
private theorem reaches_left
    (pattern : compiled.FollowedBy firstType secondType first second)
    {top each : Ticket}
    {running : Option Ticket}
    {starter : Option (Ticket × Nat)}
    {entries new : List Started}
    {event : Event}
    (stage :
      Stage compiled limit patience engine top each running
        ((entries ++ new).map Started.ticket) starter (entries ++ new)
        (if secondType = event.kind then entries.map fun entry => .offer entry.ticket event
          else []) []) :
    Reaches (3 * entries.length) engine fun later =>
      ∃ kept : List Started,
        Stage compiled limit patience later top each running
            ((kept ++ new).map Started.ticket) starter (kept ++ new) []
            ((CompiledPattern.pairing firstType secondType first second limit).next
              (entries.map Started.event) event).2 ∧
          kept.map Started.event =
            (CompiledPattern.pairing firstType secondType first second limit).left
              (entries.map Started.event) event := by
  by_cases isSecond : secondType = event.kind
  · rw [if_pos isSecond] at stage
    refine (Stage.offerStarted pattern (fun _ => rfl) [] stage).imp ?_
    rintro later ⟨kept, reached, isKept⟩
    refine ⟨kept, ?_, isKept.trans ?_⟩
    · simpa [EventPairing.next, EventPairing.completed, CompiledPattern.pairing, isSecond]
        using reached
    · simp [EventPairing.left, CompiledPattern.pairing, isSecond]
  · rw [if_neg isSecond] at stage
    refine (Reaches.now ⟨entries, ?_, ?_⟩).mono (Nat.zero_le _)
    · simpa [EventPairing.next, EventPairing.completed, CompiledPattern.pairing, isSecond]
        using stage
    · simp [EventPairing.left, CompiledPattern.pairing, isSecond]

/-- An event moves the engine as it moves the pairing, and the engine is at rest again. -/
theorem Pending.advance
    (pattern : compiled.FollowedBy firstType secondType first second)
    (isPending : Pending compiled limit patience pending engine)
    (enough : 3 * pending.length + 6 ≤ patience)
    (event : Event) :
    (engine.advance event).1.isAtRest = true ∧
      Pending compiled limit patience
        ((CompiledPattern.pairing firstType secondType first second limit).next pending event).1
        (engine.advance event).1 ∧
      (engine.advance event).2 =
        ((CompiledPattern.pairing firstType secondType first second limit).next
          pending event).2 := by
  obtain ⟨top, each, starter, entries, stage, isPending⟩ := isPending
  subst isPending
  rw [List.length_map] at enough
  have shown : Stage compiled limit patience (engine.begun (.event event)) top each
      (some starter.1) (entries.map Started.ticket) (some starter) entries
      ((if firstType = event.kind then [.offer starter.1 event] else []) ++
        if secondType = event.kind then entries.map fun entry => .offer entry.ticket event
        else []) [] := by
    refine ⟨stage.follows.withOutcome _ _ _, ?_, stage.isCompleted⟩
    change engine.agenda ++ _ = _
    rw [stage.isAgenda, List.nil_append, Stage.candidates pattern stage.follows]
    split <;> split <;> simp
  have reaches : Reaches (6 + 3 * entries.length) (engine.begun (.event event)) fun later =>
      later.isAtRest = true ∧ ∃ (again : Ticket × Nat) (now : List Started),
        Stage compiled limit patience later top each (some again.1) (now.map Started.ticket)
            (some again) now []
            ((CompiledPattern.pairing firstType secondType first second limit).next
              (entries.map Started.event) event).2 ∧
          now.map Started.event =
            ((CompiledPattern.pairing firstType secondType first second limit).next
              (entries.map Started.event) event).1 := by
    refine (reaches_started pattern shown).bind fun {between} reached => ?_
    obtain ⟨again, new, stage, isNew⟩ := reached
    refine (reaches_left pattern stage).imp ?_
    rintro later ⟨kept, reached, isKept⟩
    refine ⟨List.isEmpty_iff.mpr reached.isAgenda, again, kept ++ new, reached, ?_⟩
    rw [List.map_append, isKept, isNew, EventPairing.next]
  obtain ⟨atRest, again, now, reached, isNow⟩ := reaches.settle (by
    change 6 + 3 * entries.length ≤ engine.patience
    rw [stage.follows.patience]
    omega)
  refine ⟨atRest, ⟨top, each, again, now, ⟨?_, reached.isAgenda, rfl⟩, isNow⟩,
    reached.isCompleted⟩
  exact reached.follows.withOutcome _ _ _

/-- A waiting engine has not finished and counts its filters. -/
theorem Pending.counts
    (isPending : Pending compiled limit patience pending engine) :
    engine.isFinished = false ∧ engine.partialMatchCount = 1 + pending.length := by
  obtain ⟨top, each, starter, entries, stage, isPending⟩ := isPending
  refine ⟨?_, ?_⟩
  · rw [isFinished, stage.follows.root, Option.isNone_some]
  · rw [partialMatchCount, stage.follows.leaves, ← isPending, List.length_map]
    rfl

/-- Calls move a waiting engine as they move the pairing. -/
theorem Pending.feed
    (pattern : compiled.FollowedBy firstType secondType first second)
    (isPending : Pending compiled limit patience pending engine)
    (withinLimit : pending.length ≤ limit)
    {now : Int}
    {calls : List Call}
    (run : Run compiled limit patience now calls engine)
    (events : List Event)
    (enough : 3 * min limit (pending.length + events.length) + 6 ≤ patience) :
    let shown := feed Engine.advance engine events
    let paired :=
      feed (CompiledPattern.pairing firstType secondType first second limit).next pending events
    Run compiled limit patience now (calls ++ events.map .event) shown.1 ∧
      Pending compiled limit patience paired.1 shown.1 ∧ shown.2 = paired.2 := by
  induction events generalizing engine pending calls with
  | nil =>
      rw [List.map_nil, List.append_nil]
      exact ⟨run, isPending, rfl⟩
  | cons event events inductionHypothesis =>
      rw [List.length_cons] at enough
      obtain ⟨atRest, isNext, sameRows⟩ := isPending.advance pattern (by omega) event
      have shorter := EventPairing.length_next_le
        (CompiledPattern.pairing firstType secondType first second limit) withinLimit event
      change _ ≤ min limit (pending.length + 1) at shorter
      obtain ⟨runs, isLeft, isRows⟩ := inductionHypothesis isNext (by omega)
        (.call (.event event) run atRest) (by omega)
      refine ⟨?_, isLeft, congrArg₂ List.cons sameRows isRows⟩
      rw [List.map_cons, ← List.singleton_append, ← List.append_assoc]
      exact runs

/--
The engine of a pattern in which every event of one type is to be followed by one of another type
does what the pairing of those events does.  Whatever events it is shown, each call returns and
hands out the matches of the pairing, the engine never finishes, and apart from the filter that
starts matches it counts one filter for each pending event.
-/
theorem followedBy_refines_pairing
    {schema : Schema}
    {firstTag secondTag : String}
    {firstPredicate secondPredicate : Option Expr}
    (success :
      CompiledPattern.compile schema
        (.sequence (.every (.filter ⟨some firstTag, firstType, firstPredicate⟩))
          (.filter ⟨some secondTag, secondType, secondPredicate⟩)) = .ok compiled)
    (different : firstTag ≠ secondTag) :
    ∃ first second : Option Node,
      CompiledPattern.compileFilter schema compiled.tags []
          ⟨some firstTag, firstType, firstPredicate⟩ = .ok (.filter firstType (some 0) first) ∧
      CompiledPattern.compileFilter schema compiled.tags []
          ⟨some secondTag, secondType, secondPredicate⟩ =
        .ok (.filter secondType (some 1) second) ∧
      ∀ (limit patience : Nat) (now : Int) (events : List Event),
        3 * min limit events.length + 6 ≤ patience →
          let shown := feed Engine.advance (start compiled limit patience now) events
          let paired :=
            feed (CompiledPattern.pairing firstType secondType first second limit).next [] events
          Run compiled limit patience now (events.map .event) shown.1 ∧
            shown.2 = paired.2 ∧
            shown.1.isFinished = false ∧
            shown.1.partialMatchCount = 1 + paired.1.length := by
  obtain ⟨first, second, isFirst, isSecond, pattern⟩ :=
    CompiledPattern.followedBy_of_compile success different
  refine ⟨first, second, isFirst, isSecond, ?_⟩
  intro limit patience now events enough
  have startsUp : 3 ≤ patience := by omega
  obtain ⟨atRest, isPending⟩ := pending_start pattern limit startsUp now
  obtain ⟨runs, isLast, sameRows⟩ := isPending.feed pattern (Nat.zero_le _) (.start atRest) events
    (by rw [List.length_nil, Nat.zero_add]; exact enough)
  exact ⟨runs, sameRows, isLast.counts⟩

/-- A pattern in which every tick is to be followed by another, compiled. -/
def everyTwoTicks : CompiledPattern :=
  ⟨[.sequence 1 3, .every 2, .filter "Tick" (some 0) none, .filter "Tick" (some 1) none],
    [⟨"first", "Tick", 0, []⟩, ⟨"second", "Tick", 1, []⟩]⟩

/-- Every tick after the first completes the match of the tick before it and starts one. -/
theorem followedBy_refines_pairing_everyTwoTicks :
    CompiledPattern.compile tickSchema
        (.sequence (.every (.filter ⟨some "first", "Tick", none⟩))
          (.filter ⟨some "second", "Tick", none⟩)) = .ok everyTwoTicks ∧
      let shown := feed Engine.advance (start everyTwoTicks 10 15 0) [tick, tick, tick]
      shown.2 = [[], [[.event tick, .event tick]], [[.event tick, .event tick]]] ∧
        shown.1.partialMatchCount = 2 := by
  have compiles : CompiledPattern.compile tickSchema
      (.sequence (.every (.filter ⟨some "first", "Tick", none⟩))
        (.filter ⟨some "second", "Tick", none⟩)) = .ok everyTwoTicks := rfl
  obtain ⟨first, second, isFirst, isSecond, refines⟩ :=
    followedBy_refines_pairing compiles (by decide)
  cases isFirst
  cases isSecond
  obtain ⟨_, sameRows, _, counted⟩ := refines 10 15 0 [tick, tick, tick] (by decide)
  exact ⟨rfl, sameRows, counted⟩

end Engine

end EventQuery
