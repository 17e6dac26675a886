import EventQuery.Proofs.Pattern.Conjoined
import EventQuery.Proofs.Pattern.Finished

namespace EventQuery

/-!
# A conjunction over filters

The engine of a conjunction of filters and negated filters has one state at the top and the states of
its watchers below it.  This module follows it through the tasks of one call: a filter is shown an
event, and what it reports is recorded at the top or ends the pattern.
-/

/-- The matches in a signal. -/
def Signal.rows : Signal → List Row
  | .matched row _ => [row]
  | .failed _ => []

namespace Engine

/-- An operand of a running conjunction: its watcher, what the conjunction holds of it, and the filter
that waits for it. -/
structure Post where
  watch : Watch
  conjunct : Conjunct
  leaf : Option Ticket

namespace Post

/-- The watcher of an operand. -/
def watcher (post : Post) : Watcher := post.watch.watcher

end Post

/-- An operand runs as its watcher says: it waits, or it is bound and gone. -/
inductive Stands (blank : Row) (engine : Engine) (top : Ticket) : Post → Prop where
  | waits {watcher : Watcher} {ticket : Ticket} {created : Nat} :
      watcher.isNegated = false →
        engine.states.get? ticket = some ⟨watcher.leaf, some top, created, blank, .filter⟩ →
          Stands blank engine top ⟨⟨watcher, none⟩, ⟨some ticket, none⟩, some ticket⟩
  | absent {watcher : Watcher} {ticket leaf : Ticket} {created later : Nat} :
      watcher.isNegated = true →
        engine.states.get? ticket =
            some ⟨watcher.number, some top, created, blank, .negation (some leaf)⟩ →
          engine.states.get? leaf =
              some ⟨watcher.leaf, some ticket, later, blank, .filter⟩ →
            Stands blank engine top ⟨⟨watcher, none⟩, ⟨some ticket, some blank⟩, some leaf⟩
  | found {watcher : Watcher} {event : Event} :
      watcher.isNegated = false →
        Stands blank engine top
          ⟨⟨watcher, some event⟩, ⟨none, some (bindEvent blank watcher.slot event)⟩, none⟩

/-- The engine of a conjunction in the middle of a call. -/
structure Presides
    (compiled : CompiledPattern)
    (engine : Engine)
    (top : Ticket)
    (conjuncts : List Conjunct)
    (agenda : List Task)
    (completed : List Row) : Prop where
  due : ∃ moment horizon, Due (RowLaw.width compiled) moment horizon engine
  root : engine.root = some top
  live :
    ∃ created, engine.states.get? top =
      some ⟨CompiledPattern.rootNumber, none, created, compiled.blank, .conjunction conjuncts⟩
  isAgenda : engine.agenda = agenda
  isCompleted : engine.completed = completed

section Stands

variable {blank : Row} {engine later : Engine} {top : Ticket} {post : Post}

/-- An operand stands on as long as its own states are left. -/
theorem Stands.frame
    (stands : Stands blank engine top post)
    (keeps : ∀ {ticket : Ticket} {state : PatternState},
      engine.states.get? ticket = some state →
        state.node = post.watcher.number ∨ state.node = post.watcher.leaf →
          later.states.get? ticket = some state) :
    Stands blank later top post := by
  cases stands with
  | waits positive live => exact .waits positive (keeps live (.inr rfl))
  | absent negated live leafLive =>
      exact .absent negated (keeps live (.inl rfl)) (keeps leafLive (.inr rfl))
  | found positive => exact .found positive

/-- The conjunction has bindings of an operand that needs no further event. -/
theorem Stands.isSome_bindings
    (stands : Stands blank engine top post) :
    post.conjunct.bindings.isSome = post.watch.isSatisfied := by
  cases stands with
  | waits positive _ => simp [Watch.isSatisfied, positive]
  | absent negated _ _ => simp [Watch.isSatisfied, negated]
  | found positive => simp [Watch.isSatisfied]

/-- The bindings of an operand that needs no further event are those of its watcher. -/
theorem Stands.bindings_eq
    (stands : Stands blank engine top post)
    (isSatisfied : post.watch.isSatisfied = true) :
    post.conjunct.bindings = some (post.watch.bind blank) := by
  cases stands with
  | waits positive _ => simp [Watch.isSatisfied, positive] at isSatisfied
  | absent _ _ _ => rfl
  | found _ => rfl

end Stands

section Ends

variable {compiled : CompiledPattern} {law : RowLaw compiled} {moment horizon : Nat}
  {engine : Engine} {task : Task} {rest : List Task} {sender : Ticket} {signal : Signal}

/-- When the top reports for the last time, the rest of the agenda finds nobody. -/
theorem reaches_end
    (table : compiled.Sound)
    (due : Due law moment horizon engine)
    (isAgenda : engine.agenda = task :: rest)
    (inside : ∀ sender signal, task ≠ .report none sender signal)
    (answer : (engine.perform task).2 = [.report none sender signal])
    (isLast : signal.isLast = true) :
    Reaches (rest.length + 2) engine fun reached =>
      reached.isAtRest = true ∧ reached.root = none ∧
        reached.completed = engine.completed ++ signal.rows := by
  have isNext : engine.step.agenda = .report none sender signal :: rest := by
    rw [step_of_agenda isAgenda, answer]
    rfl
  obtain ⟨rootless, isRest, lifeless, quiet⟩ :=
    (due.step table).lifeless_of_last table isNext isLast
  have completed : engine.step.step.completed = engine.completed ++ signal.rows := by
    rw [step_of_agenda isNext, ← completed_step isAgenda inside]
    cases signal with
    | matched row isLast => rfl
    | failed restartable => exact (List.append_nil _).symm
  refine .step (.step ?_)
  have reaches := reaches_of_lifeless lifeless (isRest ▸ quiet)
  rw [isRest] at reaches
  refine reaches.imp ?_
  rintro reached rfl
  exact ⟨rfl, rootless, completed⟩

end Ends

section Presides

variable {compiled : CompiledPattern} {engine changed : Engine} {top : Ticket}
  {conjuncts now : List Conjunct} {task : Task} {rest tasks : List Task} {completed : List Row}

theorem states_step
    (isAgenda : engine.agenda = task :: rest)
    (answer : engine.perform task = (changed, tasks)) :
    engine.step.states = changed.states := by
  rw [step_of_agenda isAgenda, answer]

/-- A step whose answer is known leaves the engine presided over. -/
theorem Presides.of_answer
    (table : compiled.Sound)
    (presides : Presides compiled engine top conjuncts (task :: rest) completed)
    (inside : ∀ sender signal, task ≠ .report none sender signal)
    (answer : engine.perform task = (changed, tasks))
    (live :
      ∃ created, changed.states.get? top =
        some ⟨CompiledPattern.rootNumber, none, created, compiled.blank, .conjunction now⟩) :
    Presides compiled engine.step top now (tasks ++ rest) completed := by
  obtain ⟨moment, horizon, due⟩ := presides.due
  have same := SameStanding.perform engine inside
  constructor
  case due => exact ⟨moment, horizon, due.step table⟩
  case root =>
      rw [step_of_agenda presides.isAgenda]
      exact same.root.trans presides.root
  case live => rwa [states_step presides.isAgenda answer]
  case isAgenda => rw [step_of_agenda presides.isAgenda, answer]
  case isCompleted =>
      rw [completed_step presides.isAgenda inside, presides.isCompleted]

theorem Presides.nodeOf
    (presides : Presides compiled engine top conjuncts rest completed)
    (state : PatternState) :
    engine.nodeOf state = compiled.nodes[state.node]? := by
  obtain ⟨_, _, due⟩ := presides.due
  rw [Engine.nodeOf, due.kept.pattern]

/-- The top has a node of its own. -/
theorem Presides.ne_top
    (presides : Presides compiled engine top conjuncts rest completed)
    {ticket : Ticket}
    {state : PatternState}
    (live : engine.states.get? ticket = some state)
    (behindRoot : CompiledPattern.rootNumber < state.node) :
    ticket ≠ top := by
  rintro rfl
  obtain ⟨_, topLive⟩ := presides.live
  cases live.symm.trans topLive
  exact Nat.lt_irrefl _ behindRoot

/-- What the top is told of an operand is recorded in its place. -/
theorem Presides.record_eq
    {before after : List Conjunct}
    {conjunct : Conjunct}
    {ticket : Ticket}
    (presides :
      Presides compiled engine top (before ++ conjunct :: after) rest completed)
    (isSender : conjunct.state = some ticket)
    (row : Row)
    (isLast : Bool) :
    Conjunct.record (before ++ conjunct :: after) ticket row isLast =
      before ++ ⟨if isLast then none else some ticket, some row⟩ :: after := by
  obtain ⟨_, _, due⟩ := presides.due
  obtain ⟨_, live⟩ := presides.live
  have distinct : ((before ++ conjunct :: after).filterMap Conjunct.state).Nodup :=
    due.kept.childrenNodup live
  have atPlace : (before ++ conjunct :: after)[before.length]? = some conjunct := by simp
  rw [record_eq_set distinct atPlace isSender, isSender]
  simp

end Presides

section Tasks

variable {compiled : CompiledPattern} {watchers : List Watcher} {engine : Engine} {top : Ticket}
  {conjuncts before after : List Conjunct} {conjunct : Conjunct} {rest : List Task}
  {completed : List Row} {ticket : Ticket} {row : Row}

/-- A conjunction that has bindings of all operands matches with them and ends. -/
theorem Presides.reaches_match
    {isLast : Bool}
    (table : compiled.Sound)
    (conjoins : compiled.Conjoins watchers)
    (presides :
      Presides compiled engine top (before ++ conjunct :: after)
        (.report (some top) ticket (.matched row isLast) :: rest) completed)
    (isSender : conjunct.state = some ticket)
    (complete :
      (before ++ ⟨if isLast then none else some ticket, some row⟩ :: after).all
        fun operand => operand.bindings.isSome) :
    Reaches (rest.length + 2) engine fun reached =>
      reached.isAtRest = true ∧ reached.root = none ∧
        reached.completed = completed ++
          [Conjunct.merge compiled.blank
            (before ++ ⟨if isLast then none else some ticket, some row⟩ :: after)] := by
  obtain ⟨_, _, due⟩ := presides.due
  obtain ⟨created, live⟩ := presides.live
  have recorded := get?_update_self live fun _ =>
    .conjunction (before ++ ⟨if isLast then none else some ticket, some row⟩ :: after)
  have answer : (engine.perform (.report (some top) ticket (.matched row isLast))).2 =
      [.report none top (.matched (Conjunct.merge compiled.blank
        (before ++ ⟨if isLast then none else some ticket, some row⟩ :: after)) true)] := by
    simp only [perform, receive, live, presides.nodeOf, conjoins.root, receiveConjunction,
      presides.record_eq isSender, complete, ↓reduceIte, finish, recorded]
    rfl
  have reaches := reaches_end table due presides.isAgenda (by rintro _ _ ⟨⟩) answer rfl
  rw [presides.isCompleted] at reaches
  exact reaches

/-- A conjunction that lacks bindings records what it is told and waits on. -/
theorem Presides.record
    {isLast : Bool}
    (table : compiled.Sound)
    (conjoins : compiled.Conjoins watchers)
    (presides :
      Presides compiled engine top (before ++ conjunct :: after)
        (.report (some top) ticket (.matched row isLast) :: rest) completed)
    (isSender : conjunct.state = some ticket)
    (incomplete :
      ((before ++ ⟨if isLast then none else some ticket, some row⟩ :: after).all
        fun operand => operand.bindings.isSome) = false) :
    Presides compiled engine.step top
        (before ++ ⟨if isLast then none else some ticket, some row⟩ :: after) rest completed ∧
      ∀ other, other ≠ top → engine.step.states.get? other = engine.states.get? other := by
  obtain ⟨created, live⟩ := presides.live
  have answer : engine.perform (.report (some top) ticket (.matched row isLast)) =
      (engine.update top fun _ =>
        .conjunction (before ++ ⟨if isLast then none else some ticket, some row⟩ :: after), []) := by
    simp only [perform, receive, live, presides.nodeOf, conjoins.root, receiveConjunction,
      presides.record_eq isSender, incomplete, Bool.false_eq_true, ↓reduceIte]
  refine ⟨presides.of_answer table (by rintro _ _ ⟨⟩) answer ⟨created, get?_update_self live _⟩, ?_⟩
  intro other different
  rw [states_step presides.isAgenda answer, get?_update, if_neg different]

/-- The failure of an operand ends a conjunction without a match. -/
theorem Presides.reaches_veto
    {restartable : Bool}
    (table : compiled.Sound)
    (conjoins : compiled.Conjoins watchers)
    (presides :
      Presides compiled engine top conjuncts
        (.report (some top) ticket (.failed restartable) :: rest) completed) :
    Reaches (rest.length + 2) engine fun reached =>
      reached.isAtRest = true ∧ reached.root = none ∧ reached.completed = completed := by
  obtain ⟨_, _, due⟩ := presides.due
  obtain ⟨created, live⟩ := presides.live
  have answer : (engine.perform (.report (some top) ticket (.failed restartable))).2 =
      [.report none top (.failed restartable)] := by
    simp only [perform, receive, live, presides.nodeOf, conjoins.root, receiveConjunction, finish]
  have reaches := reaches_end table due presides.isAgenda (by rintro _ _ ⟨⟩) answer rfl
  rw [presides.isCompleted, Signal.rows, List.append_nil] at reaches
  exact reaches

/-- A filter is shown an event: it reports the event and is gone, or waits on. -/
theorem Presides.offer
    {watcher : Watcher}
    {event : Event}
    {leaf parent : Ticket}
    {created : Nat}
    (table : compiled.Sound)
    (conjoins : compiled.Conjoins watchers)
    (member : watcher ∈ watchers)
    (presides :
      Presides compiled engine top conjuncts (.offer leaf event :: rest) completed)
    (leafLive :
      engine.states.get? leaf =
        some ⟨watcher.leaf, some parent, created, compiled.blank, .filter⟩) :
    if Node.holds watcher.predicate (compiled.blank ++ [.event event]) then
      Presides compiled engine.step top conjuncts
          (.report (some parent) leaf
              (.matched (bindEvent compiled.blank watcher.slot event) true) :: rest) completed ∧
        engine.step.states.get? leaf = none ∧
        ∀ other, other ≠ leaf → engine.step.states.get? other = engine.states.get? other
    else
      Presides compiled engine.step top conjuncts rest completed ∧
        engine.step.states = engine.states := by
  obtain ⟨states, took⟩ := Pool.exists_take leafLive
  obtain ⟨topCreated, live⟩ := presides.live
  have atLeaf : engine.nodeOf ⟨watcher.leaf, some parent, created, compiled.blank, .filter⟩ =
      some (.filter watcher.eventType watcher.slot watcher.predicate) :=
    (presides.nodeOf _).trans (conjoins.filters watcher member)
  obtain ⟨faults, offered⟩ := offer_filter event took atLeaf rfl
  have behindRoot : CompiledPattern.rootNumber < watcher.leaf :=
    Nat.lt_of_lt_of_le (conjoins.behindRoot watcher member) watcher.number_le_leaf
  have apart : top ≠ leaf := (presides.ne_top leafLive behindRoot).symm
  have dropped : ∀ other, other ≠ leaf → states.get? other = engine.states.get? other := by
    intro other different
    rw [Pool.get?_take took, if_neg different]
  split
  next holds =>
      have answer := offered.trans (if_pos holds)
      refine ⟨presides.of_answer table (by rintro _ _ ⟨⟩) answer ⟨topCreated, ?_⟩, ?_,
        fun other different => ?_⟩
      · exact (dropped top apart).trans live
      · rw [states_step presides.isAgenda answer]
        exact (Pool.get?_take took leaf).trans (if_pos rfl)
      · rw [states_step presides.isAgenda answer]
        exact dropped other different
  next fails =>
      have answer := offered.trans (if_neg fails)
      have sameStates := states_step presides.isAgenda answer
      exact ⟨presides.of_answer table (by rintro _ _ ⟨⟩) answer ⟨topCreated, live⟩, sameStates⟩

/-- What a negated filter accepts ends the conjunction. -/
theorem Presides.reaches_veto_of_absent
    {watcher : Watcher}
    {leaf : Ticket}
    {created : Nat}
    (table : compiled.Sound)
    (conjoins : compiled.Conjoins watchers)
    (member : watcher ∈ watchers)
    (negated : watcher.isNegated = true)
    (presides :
      Presides compiled engine top conjuncts
        (.report (some ticket) leaf (.matched row true) :: rest) completed)
    (live :
      engine.states.get? ticket =
        some ⟨watcher.number, some top, created, compiled.blank, .negation (some leaf)⟩)
    (leafGone : engine.states.get? leaf = none) :
    Reaches (rest.length + 3) engine fun reached =>
      reached.isAtRest = true ∧ reached.root = none ∧ reached.completed = completed := by
  obtain ⟨states, took⟩ := Pool.exists_take live
  obtain ⟨topCreated, topLive⟩ := presides.live
  have apart : top ≠ ticket :=
    (presides.ne_top live (conjoins.behindRoot watcher member)).symm
  have released : engine.release [ticket] = engine.drop
      ⟨watcher.number, some top, created, compiled.blank, .negation (some leaf)⟩ states := by
    rw [release_of_take took]
    refine release_of_dead ?_
    rw [Option.eq_none_iff_forall_not_mem]
    intro state found
    rw [((get?_drop_iff took).mp found).2] at leafGone
    cases leafGone
  have answer : engine.perform (.report (some ticket) leaf (.matched row true)) =
      (engine.drop ⟨watcher.number, some top, created, compiled.blank, .negation (some leaf)⟩
          states, [.report (some top) ticket (.failed true)]) := by
    simp only [perform, receive, live, presides.nodeOf, conjoins.negations watcher member negated,
      receiveNegation, finish, released]
  have failed := presides.of_answer table (by rintro _ _ ⟨⟩) answer
    ⟨topCreated, get?_drop_of_live took topLive apart⟩
  exact .step (failed.reaches_veto table conjoins)

end Tasks

end Engine

end EventQuery
