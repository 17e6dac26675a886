import EventQuery.Proofs.Pattern.Budget
import EventQuery.Proofs.Pattern.Conjoining

namespace EventQuery

/-!
# Conjunctions from their start

A conjunction of filters and negated filters starts its operands in their order.  A negation holds
from its start on, so that a conjunction of negations only has matched when it has started.
-/

namespace Engine

/-- An operand that is created and does not run yet. -/
def Begins (blank : Row) (engine : Engine) (top : Ticket) (entry : Watcher × Ticket) : Prop :=
  ∃ created, engine.states.get? entry.2 =
    some ⟨entry.1.number, some top, created, blank,
      if entry.1.isNegated then .negation none else .filter⟩

section Start

variable {compiled : CompiledPattern} {watchers : List Watcher} {engine later : Engine}
  {top : Ticket} {completed : List Row}

theorem Begins.frame
    {blank : Row}
    {entry : Watcher × Ticket}
    (begins : Begins blank engine top entry)
    (keeps : ∀ {ticket : Ticket} {state : PatternState},
      engine.states.get? ticket = some state → state.node = entry.1.number →
        later.states.get? ticket = some state) :
    Begins blank later top entry := by
  obtain ⟨created, live⟩ := begins
  exact ⟨created, keeps live rfl⟩

/-- One operand is created for each watcher. -/
private theorem exists_entries
    (conjoins : compiled.Conjoins watchers)
    {created : List Watcher}
    (among : ∀ watcher ∈ created, watcher ∈ watchers)
    (sound : engine.states.Sound)
    (isPattern : engine.pattern = compiled) :
    ∃ entries : List (Watcher × Ticket), entries.map Prod.fst = created ∧
      entries.map Prod.snd =
        (engine.createAll top compiled.blank (created.map Watcher.number)).2 ∧
      ∀ entry ∈ entries, Begins compiled.blank
        (engine.createAll top compiled.blank (created.map Watcher.number)).1 top entry := by
  induction created generalizing engine with
  | nil => exact ⟨[], rfl, rfl, nofun⟩
  | cons watcher rest inductionHypothesis =>
      obtain ⟨isWatcher, others⟩ := List.forall_mem_cons.mp among
      have soundNow : (engine.create watcher.number (some top) compiled.blank).1.states.Sound :=
        sound.insert _
      obtain ⟨entries, isRest, isTickets, begin⟩ := inductionHypothesis others soundNow isPattern
      refine ⟨(watcher, (engine.create watcher.number (some top) compiled.blank).2) :: entries,
        by rw [List.map_cons, isRest], by rw [List.map_cons, isTickets]; rfl,
        List.forall_mem_cons.mpr ⟨⟨engine.next, ?_⟩, begin⟩⟩
      have born := get?_createAll_of_live soundNow top compiled.blank (rest.map Watcher.number)
        (get?_create_self sound watcher.number (some top) compiled.blank)
      refine born.trans (congrArg some ?_)
      rw [newState, isPattern]
      cases negated : watcher.isNegated with
      | true =>
          rw [conjoins.negations watcher isWatcher negated]
          rfl
      | false =>
          have atFilter := conjoins.filters watcher isWatcher
          rw [Watcher.leaf, negated, if_neg Bool.false_ne_true] at atFilter
          rw [atFilter]
          rfl

/-- A negation and its filter stand below the top, and other states are as they were. -/
private structure Negates
    (blank : Row)
    (before after : Engine)
    (top ticket leaf : Ticket)
    (watcher : Watcher) : Prop where
  own :
    ∃ created, after.states.get? ticket =
      some ⟨watcher.number, some top, created, blank, .negation (some leaf)⟩
  filter :
    ∃ created, after.states.get? leaf =
      some ⟨watcher.leaf, some ticket, created, blank, .filter⟩
  others :
    ∀ other state, before.states.get? other = some state → other ≠ ticket →
      after.states.get? other = some state

private theorem Negates.of_states
    {blank : Row}
    {before after : Engine}
    {ticket leaf : Ticket}
    {watcher : Watcher}
    (negates : Negates blank before after top ticket leaf watcher)
    (sameStates : later.states = after.states) :
    Negates blank before later top ticket leaf watcher :=
  ⟨sameStates ▸ negates.own, sameStates ▸ negates.filter, sameStates ▸ negates.others⟩

section Operand

variable {conjuncts : List Conjunct} {rest : List Task} {watcher : Watcher} {ticket : Ticket}

/-- A filter that starts waits. -/
private theorem Presides.awaits
    {created : Nat}
    (table : compiled.Sound)
    (conjoins : compiled.Conjoins watchers)
    (member : watcher ∈ watchers)
    (presides :
      Presides compiled engine top conjuncts (.operand top ticket :: rest) completed)
    (live :
      engine.states.get? ticket =
        some ⟨watcher.leaf, some top, created, compiled.blank, .filter⟩) :
    Presides compiled engine.step top conjuncts rest completed ∧
      engine.step.states = engine.states := by
  obtain ⟨topCreated, topLive⟩ := presides.live
  have answer : engine.perform (.operand top ticket) =
      (engine.await ticket ⟨watcher.leaf, some top, created, compiled.blank, .filter⟩, []) := by
    rw [perform, if_pos (by rw [Pool.contains, topLive]; rfl)]
    exact Stage.activate_filter live
      ((presides.nodeOf _).trans (conjoins.filters watcher member))
  have sameStates := states_step presides.isAgenda answer
  exact ⟨presides.of_answer table (by rintro _ _ ⟨⟩) answer presides.live, sameStates⟩

/-- A negation that starts creates its filter. -/
private theorem Presides.startsNegation
    (table : compiled.Sound)
    (conjoins : compiled.Conjoins watchers)
    (member : watcher ∈ watchers)
    (negated : watcher.isNegated = true)
    (presides :
      Presides compiled engine top conjuncts (.operand top ticket :: rest) completed)
    (begins : Begins compiled.blank engine top (watcher, ticket)) :
    ∃ leaf,
      Presides compiled engine.step top conjuncts (.activate leaf :: .absence ticket :: rest)
          completed ∧
        Negates compiled.blank engine engine.step top ticket leaf watcher := by
  obtain ⟨ownCreated, live⟩ := begins
  simp only [negated, if_true] at live
  obtain ⟨topCreated, topLive⟩ := presides.live
  obtain ⟨_, _, due⟩ := presides.due
  have sound := due.kept.sound
  have apart : top ≠ ticket :=
    (presides.ne_top live (conjoins.behindRoot watcher member)).symm
  have newLive := newState_live sound live watcher.leaf compiled.blank
    (Progress.withChild (engine.create watcher.leaf (some ticket) compiled.blank).2)
  have isFilter : engine.newState watcher.leaf (some ticket) compiled.blank =
      ⟨watcher.leaf, some ticket, engine.next, compiled.blank, .filter⟩ := by
    rw [newState, due.kept.pattern, conjoins.filters watcher member]
    rfl
  rw [isFilter] at newLive
  have ownLive := get?_update_self
    (get?_create_of_live sound watcher.leaf (some ticket) compiled.blank live)
    (Progress.withChild (engine.create watcher.leaf (some ticket) compiled.blank).2)
  have othersLive : ∀ other state, engine.states.get? other = some state → other ≠ ticket →
      ((engine.create watcher.leaf (some ticket) compiled.blank).1.update ticket
        (Progress.withChild
          (engine.create watcher.leaf (some ticket) compiled.blank).2)).states.get? other =
            some state := by
    intro other state otherLive different
    rw [get?_update, if_neg different]
    exact get?_create_of_live sound watcher.leaf (some ticket) compiled.blank otherLive
  have answer : engine.perform (.operand top ticket) =
      ((engine.create watcher.leaf (some ticket) compiled.blank).1.update ticket
          (Progress.withChild (engine.create watcher.leaf (some ticket) compiled.blank).2),
        [.activate (engine.create watcher.leaf (some ticket) compiled.blank).2,
          .absence ticket]) := by
    simp only [perform, Pool.contains, topLive, Option.isSome_some, if_true, activate, live,
      presides.nodeOf, conjoins.negations watcher member negated, startChild]
    rfl
  refine ⟨_, presides.of_answer table (by rintro _ _ ⟨⟩) answer
    ⟨topCreated, othersLive top _ topLive apart⟩, Negates.of_states ?_
      (states_step presides.isAgenda answer)⟩
  exact ⟨⟨ownCreated, ownLive⟩, ⟨engine.next, newLive⟩, othersLive⟩

/-- A negation starts its filter, holds, and tells the top so. -/
private theorem Presides.negates
    (table : compiled.Sound)
    (conjoins : compiled.Conjoins watchers)
    (member : watcher ∈ watchers)
    (negated : watcher.isNegated = true)
    (presides :
      Presides compiled engine top conjuncts (.operand top ticket :: rest) completed)
    (begins : Begins compiled.blank engine top (watcher, ticket)) :
    ∃ leaf,
      Presides compiled engine.step.step.step top conjuncts
          (.report (some top) ticket (.matched compiled.blank false) :: rest) completed ∧
        Negates compiled.blank engine engine.step.step.step top ticket leaf watcher := by
  obtain ⟨leaf, created, negates⟩ :=
    presides.startsNegation table conjoins member negated begins
  obtain ⟨_, leafLive⟩ := negates.filter
  have awaits : engine.step.perform (.activate leaf) = _ :=
    Stage.activate_filter leafLive
      ((created.nodeOf _).trans (conjoins.filters watcher member))
  have waiting := created.of_answer table (by rintro _ _ ⟨⟩) awaits created.live
  have sameStates := states_step created.isAgenda awaits
  have negatesStill := negates.of_states sameStates
  obtain ⟨_, ownLive⟩ := negatesStill.own
  have tells : engine.step.step.perform (.absence ticket) =
      (engine.step.step, [.report (some top) ticket (.matched compiled.blank false)]) := by
    simp only [perform, ownLive]
    rfl
  exact ⟨leaf, waiting.of_answer table (by rintro _ _ ⟨⟩) tells waiting.live,
    negatesStill.of_states (states_step waiting.isAgenda tells)⟩

end Operand

/-- What the conjunction holds of an operand that does not run yet. -/
private def unheard (entry : Watcher × Ticket) : Conjunct := ⟨some entry.2, none⟩

/-- The scan that an engine has come to when its operands have started. -/
private def startedScan (watchers : List Watcher) (blank : Row) (completed : List Row) : Scan :=
  if watchers.all Watcher.isNegated then ⟨none, completed ++ [blank]⟩
  else ⟨some (watchers.map fun watcher => ⟨watcher, none⟩), completed⟩

section Unbound

variable {posts : List Post}

/-- Where nothing is bound, the negations only need no further event. -/
private theorem all_isSatisfied_of_unbound
    (unbound : ∀ post ∈ posts, post.watch.found = none) :
    (posts.map Post.watch).all Watch.isSatisfied =
      (posts.map Post.watcher).all Watcher.isNegated := by
  rw [List.all_map, List.all_map, Bool.eq_iff_iff, List.all_eq_true, List.all_eq_true]
  refine forall₂_congr fun post member => ?_
  rw [Function.comp_apply, Function.comp_apply, Watch.isSatisfied, unbound post member,
    Option.isSome_none, Bool.or_false, Post.watcher]

/-- Where nothing is bound, the bindings are those at the start. -/
private theorem bindings_of_unbound
    {blank : Row}
    (unbound : ∀ post ∈ posts, post.watch.found = none) :
    Watch.bindings blank (posts.map Post.watch) = blank := by
  induction posts with
  | nil => rfl
  | cons post rest inductionHypothesis =>
      obtain ⟨here, later⟩ := List.forall_mem_cons.mp unbound
      rw [Watch.bindings, List.map_cons, List.foldl_cons, Watch.bind, here]
      exact inductionHypothesis later

end Unbound

/-- Some operands of a conjunction have started, and the others are about to. -/
private structure Convening
    (compiled : CompiledPattern)
    (watchers : List Watcher)
    (engine : Engine)
    (top : Ticket)
    (completed : List Row)
    (started : List Post)
    (todo : List (Watcher × Ticket)) : Prop where
  isWatchers : started.map Post.watcher ++ todo.map Prod.fst = watchers
  unbound : ∀ post ∈ started, post.watch.found = none
  presides :
    Presides compiled engine top (started.map Post.conjunct ++ todo.map unheard)
      (todo.map fun entry => .operand top entry.2) completed
  stands : ∀ post ∈ started, Stands compiled.blank engine top post
  begin : ∀ entry ∈ todo, Begins compiled.blank engine top entry

/-- A negation that has told the top that it holds, which the top has not taken in. -/
private structure Telling
    (compiled : CompiledPattern)
    (watchers : List Watcher)
    (engine : Engine)
    (top ticket : Ticket)
    (completed : List Row)
    (started : List Post)
    (post : Post)
    (todo : List (Watcher × Ticket)) : Prop where
  isWatchers : (started ++ [post]).map Post.watcher ++ todo.map Prod.fst = watchers
  unbound : ∀ standing ∈ started ++ [post], standing.watch.found = none
  isTold : post.conjunct = ⟨some ticket, some compiled.blank⟩
  presides :
    Presides compiled engine top
      (started.map Post.conjunct ++ unheard (post.watcher, ticket) :: todo.map unheard)
      (.report (some top) ticket (.matched compiled.blank false) ::
        todo.map fun entry => .operand top entry.2)
      completed
  stands : ∀ standing ∈ started ++ [post], Stands compiled.blank engine top standing
  begin : ∀ entry ∈ todo, Begins compiled.blank engine top entry

section Convening

variable {watcher : Watcher} {ticket : Ticket} {started : List Post} {post : Post}
  {todo : List (Watcher × Ticket)}

/-- When all operands have started and one of them waits, the engine stands where the scan starts. -/
private theorem Convening.mirrors
    (convening : Convening compiled watchers engine top completed started [])
    (positive : ∃ post ∈ started, post.watcher.isNegated = false) :
    engine.isAtRest = true ∧
      Mirrors compiled watchers engine (startedScan watchers compiled.blank completed) := by
  obtain ⟨isWatchers, unbound, presides, stands, _⟩ := convening
  rw [List.map_nil, List.append_nil] at isWatchers presides
  obtain ⟨post, isPost, isPositive⟩ := positive
  have isOpen : ¬watchers.all Watcher.isNegated = true := by
    rw [List.all_eq_true, ← isWatchers]
    intro allNegated
    have negated := allNegated post.watcher (List.mem_map_of_mem isPost)
    exact absurd (isPositive.symm.trans negated) Bool.false_ne_true
  refine ⟨List.isEmpty_iff.mpr presides.isAgenda, ?_⟩
  rw [startedScan, if_neg isOpen]
  refine ⟨top, started, ?_, isWatchers, presides, stands⟩
  rw [← isWatchers, List.map_map]
  refine List.map_congr_left fun standing isStanding => ?_
  rw [Function.comp_apply, Post.watcher, ← unbound standing isStanding]

/-- A filter starts in one step. -/
private theorem Convening.filter
    (table : compiled.Sound)
    (conjoins : compiled.Conjoins watchers)
    (positive : watcher.isNegated = false)
    (convening :
      Convening compiled watchers engine top completed started ((watcher, ticket) :: todo)) :
    ∃ post, post.watcher = watcher ∧
      Convening compiled watchers engine.step top completed (started ++ [post]) todo := by
  obtain ⟨isWatchers, unbound, presides, stands, begin⟩ := convening
  obtain ⟨⟨created, live⟩, others⟩ := List.forall_mem_cons.mp begin
  rw [List.map_cons, List.map_cons] at presides
  rw [List.map_cons] at isWatchers
  have member : watcher ∈ watchers := isWatchers ▸ by simp
  have isLeaf : watcher.number = watcher.leaf := by simp [Watcher.leaf, positive]
  simp only [positive, Bool.false_eq_true, if_false, isLeaf] at live
  obtain ⟨waiting, sameStates⟩ := presides.awaits table conjoins member live
  let post : Post := ⟨⟨watcher, none⟩, ⟨some ticket, none⟩, some ticket⟩
  have standsOn : ∀ {standing : Post}, Stands compiled.blank engine top standing →
      Stands compiled.blank engine.step top standing :=
    fun standing => standing.frame fun live _ => sameStates ▸ live
  have isMoved : started.map Post.conjunct ++ unheard (watcher, ticket) :: todo.map unheard =
      (started ++ [post]).map Post.conjunct ++ todo.map unheard := by simp [post, unheard]
  refine ⟨post, rfl, ?_⟩
  constructor
  case isWatchers => simpa [post, Post.watcher] using isWatchers
  case unbound => exact List.forall_mem_append.mpr ⟨unbound, List.forall_mem_singleton.mpr rfl⟩
  case presides => exact isMoved ▸ waiting
  case stands =>
      exact List.forall_mem_append.mpr ⟨fun standing isStanding => standsOn (stands _ isStanding),
        List.forall_mem_singleton.mpr (standsOn (.waits positive live))⟩
  case begin =>
      exact fun entry isEntry => (others entry isEntry).frame fun live _ => sameStates ▸ live

/-- A negation starts in three steps and then tells the top that it holds. -/
private theorem Convening.negation
    (table : compiled.Sound)
    (conjoins : compiled.Conjoins watchers)
    (negated : watcher.isNegated = true)
    (convening :
      Convening compiled watchers engine top completed started ((watcher, ticket) :: todo)) :
    ∃ post, post.watcher = watcher ∧
      Telling compiled watchers engine.step.step.step top ticket completed started post todo := by
  obtain ⟨isWatchers, unbound, presides, stands, begin⟩ := convening
  obtain ⟨here, others⟩ := List.forall_mem_cons.mp begin
  rw [List.map_cons, List.map_cons] at presides
  rw [List.map_cons] at isWatchers
  have member : watcher ∈ watchers := isWatchers ▸ by simp
  obtain ⟨leaf, told, negates⟩ := presides.negates table conjoins member negated here
  obtain ⟨_, ownLive⟩ := negates.own
  obtain ⟨_, leafLive⟩ := negates.filter
  -- The other operands are left alone.
  have keeps : ∀ {other : Watcher}, other ∈ started.map Post.watcher ++ todo.map Prod.fst →
      ∀ {found : Ticket} {state : PatternState}, engine.states.get? found = some state →
        state.node = other.number ∨ state.node = other.leaf →
          engine.step.step.step.states.get? found = some state := by
    intro other isOther found state live isOwn
    obtain ⟨⟨apartNumber, apartLeaf⟩, _⟩ := apart_of_conjoins conjoins isWatchers isOther
    refine negates.others found state live ?_
    rintro rfl
    obtain ⟨_, before⟩ := here
    cases live.symm.trans before
    exact isOwn.elim (fun same => apartNumber same.symm) fun same => apartLeaf same.symm
  refine ⟨⟨⟨watcher, none⟩, ⟨some ticket, some compiled.blank⟩, some leaf⟩, rfl, ?_⟩
  constructor
  case isWatchers => simpa [Post.watcher] using isWatchers
  case unbound => exact List.forall_mem_append.mpr ⟨unbound, List.forall_mem_singleton.mpr rfl⟩
  case isTold => rfl
  case presides => exact told
  case stands =>
      exact List.forall_mem_append.mpr ⟨fun standing isStanding => (stands _ isStanding).frame
        (keeps (List.mem_append_left _ (List.mem_map_of_mem isStanding))),
          List.forall_mem_singleton.mpr (.absent negated ownLive leafLive)⟩
  case begin =>
      exact fun entry isEntry => (others entry isEntry).frame fun live isOwn =>
        keeps (List.mem_append_right _ (List.mem_map_of_mem isEntry)) live (.inl isOwn)

/-- A conjunction of negations only matches when the last of them has started. -/
private theorem Telling.matches
    (table : compiled.Sound)
    (conjoins : compiled.Conjoins watchers)
    (allNegated : watchers.all Watcher.isNegated = true)
    (telling : Telling compiled watchers engine top ticket completed started post []) :
    Reaches 2 engine fun reached =>
      reached.isAtRest = true ∧
        Mirrors compiled watchers reached (startedScan watchers compiled.blank completed) := by
  have isAll := telling.isWatchers
  rw [List.map_nil, List.append_nil] at isAll
  have satisfied := all_isSatisfied_of_unbound telling.unbound
  have collected := Presides.collects table conjoins telling.stands isAll rfl telling.presides
    telling.isTold
  rw [if_pos (satisfied.trans (isAll ▸ allNegated)), bindings_of_unbound telling.unbound]
    at collected
  rw [startedScan, if_pos allNegated]
  exact collected

/-- Else the top takes in that the negation holds, and goes on. -/
private theorem Telling.goesOn
    (table : compiled.Sound)
    (conjoins : compiled.Conjoins watchers)
    (isOpen : ¬(todo = [] ∧ watchers.all Watcher.isNegated = true))
    (telling : Telling compiled watchers engine top ticket completed started post todo) :
    Convening compiled watchers engine.step top completed (started ++ [post]) todo := by
  obtain ⟨isWatchers, unbound, isTold, presides, stands, begin⟩ := telling
  have incomplete : ((started.map Post.conjunct ++
      ⟨some ticket, some compiled.blank⟩ :: todo.map unheard).all
        fun operand => operand.bindings.isSome) = false := by
    rw [Bool.eq_false_iff]
    intro complete
    cases todo with
    | nil =>
        rw [List.map_nil, List.append_nil] at isWatchers
        have isSome := all_isSome_bindings stands
        rw [all_isSatisfied_of_unbound unbound, isWatchers, List.map_append, List.map_singleton,
          isTold] at isSome
        exact isOpen ⟨rfl, isSome.symm.trans complete⟩
    | cons first more =>
        rw [List.all_eq_true] at complete
        exact absurd (complete (unheard first) (by simp)) Bool.false_ne_true
  obtain ⟨recorded, keepsAll⟩ := presides.record table conjoins rfl incomplete
  have keeps : ∀ {other : Watcher}, other ∈ watchers →
      ∀ {found : Ticket} {state : PatternState}, engine.states.get? found = some state →
        state.node = other.number ∨ state.node = other.leaf →
          engine.step.states.get? found = some state := by
    intro other isOther found state live isOwn
    refine (keepsAll found (presides.ne_top live ?_)).trans live
    have behindRoot := conjoins.behindRoot other isOther
    have := other.number_le_leaf
    omega
  have isMoved : started.map Post.conjunct ++
      ⟨if false = true then none else some ticket, some compiled.blank⟩ :: todo.map unheard =
        (started ++ [post]).map Post.conjunct ++ todo.map unheard := by simp [isTold]
  constructor
  case isWatchers => exact isWatchers
  case unbound => exact unbound
  case presides => exact isMoved ▸ recorded
  case stands =>
      exact fun standing isStanding => (stands standing isStanding).frame
        (keeps (isWatchers ▸ List.mem_append_left _ (List.mem_map_of_mem isStanding)))
  case begin =>
      exact fun entry isEntry => (begin entry isEntry).frame fun live isOwn =>
        keeps (isWatchers ▸ List.mem_append_right _ (List.mem_map_of_mem isEntry)) live (.inl isOwn)

/-- The operands start one after another, behind those that have started. -/
private theorem Convening.reaches
    (table : compiled.Sound)
    (conjoins : compiled.Conjoins watchers)
    (convening : Convening compiled watchers engine top completed started todo)
    (pending : todo = [] → ∃ post ∈ started, post.watcher.isNegated = false) :
    Reaches (4 * todo.length + 1) engine fun reached =>
      reached.isAtRest = true ∧
        Mirrors compiled watchers reached (startedScan watchers compiled.blank completed) := by
  induction todo generalizing started engine with
  | nil =>
      exact (Reaches.now (convening.mirrors (pending rfl))).mono (Nat.zero_le _)
  | cons entry rest inductionHypothesis =>
      obtain ⟨watcher, ticket⟩ := entry
      rw [List.length_cons]
      cases negated : watcher.isNegated with
      | false =>
          obtain ⟨post, rfl, conveningOn⟩ := convening.filter table conjoins negated
          refine (Reaches.step (inductionHypothesis conveningOn fun _ => ?_)).mono (by omega)
          exact ⟨post, List.mem_append_right _ (List.mem_singleton_self post), negated⟩
      | true =>
          obtain ⟨post, _, telling⟩ := convening.negation table conjoins negated
          by_cases isOver : rest = [] ∧ watchers.all Watcher.isNegated = true
          · obtain ⟨rfl, allNegated⟩ := isOver
            exact .step (.step (.step (telling.matches table conjoins allNegated)))
          · have conveningOn := telling.goesOn table conjoins isOver
            have reaches := inductionHypothesis conveningOn ?_
            · exact (Reaches.step (.step (.step (.step reaches)))).mono (by omega)
            · -- Without an operand that waits, all are negated.
              rintro rfl
              by_contra noneWaits
              have isAll := conveningOn.isWatchers
              rw [List.map_nil, List.append_nil] at isAll
              refine isOver ⟨rfl, ?_⟩
              rw [← isAll, List.all_map, List.all_eq_true]
              intro standing isStanding
              by_contra positive
              exact noneWaits ⟨standing, isStanding, Bool.eq_false_iff.mpr positive⟩

end Convening

/-- The top of a conjunction begins to start. -/
private theorem exists_presides_opened
    (table : compiled.Sound)
    (conjoins : compiled.Conjoins watchers)
    (limit patience : Nat)
    (now : Int) :
    ∃ top, Presides compiled (opened compiled limit patience now) top [] [.activate top] [] := by
  have due := due_opened table (RowLaw.width compiled) limit patience now
  have sound := (coherent_idle (RowLaw.width compiled) limit patience now).kept.sound
  have live := get?_create_self sound CompiledPattern.rootNumber none compiled.blank
  have isTop : (idle compiled limit patience now).newState CompiledPattern.rootNumber none
      compiled.blank =
        ⟨CompiledPattern.rootNumber, none, 0, compiled.blank, .conjunction []⟩ := by
    rw [newState, show (idle compiled limit patience now).pattern = compiled from rfl,
      conjoins.root]
    rfl
  rw [isTop] at live
  exact ⟨_, ⟨_, _, due⟩, rfl, ⟨0, live⟩, rfl, rfl⟩

/-- The top creates its operands and is going to start them. -/
private theorem Presides.creates
    {rest : List Task}
    (table : compiled.Sound)
    (conjoins : compiled.Conjoins watchers)
    (presides : Presides compiled engine top [] (.activate top :: rest) completed) :
    ∃ entries : List (Watcher × Ticket), entries.map Prod.fst = watchers ∧
      Presides compiled engine.step top (entries.map unheard)
          ((entries.map fun entry => .operand top entry.2) ++ rest) completed ∧
        ∀ entry ∈ entries, Begins compiled.blank engine.step top entry := by
  obtain ⟨_, _, due⟩ := presides.due
  obtain ⟨created, live⟩ := presides.live
  have sound := due.kept.sound
  obtain ⟨entries, isWatchers, isTickets, begin⟩ :=
    exists_entries conjoins (fun _ member => member) sound due.kept.pattern
  have topLive := get?_update_self
    (get?_createAll_of_live sound top compiled.blank (watchers.map Watcher.number) live)
    (Progress.withOperands (entries.map Prod.snd))
  have answer : engine.perform (.activate top) =
      ((engine.createAll top compiled.blank (watchers.map Watcher.number)).1.update top
          (Progress.withOperands (entries.map Prod.snd)),
        entries.map fun entry => .operand top entry.2) := by
    simp only [perform, activate, live, presides.nodeOf, conjoins.root, startOperands, isTickets]
    rw [← isTickets, List.map_map]
    rfl
  have isHeard : Progress.withOperands (entries.map Prod.snd) (.conjunction []) =
      .conjunction (entries.map unheard) := by
    rw [Progress.withOperands, List.map_map]
    rfl
  have presidesThen := presides.of_answer table (by rintro _ _ ⟨⟩) answer
    ⟨created, by rw [topLive, PatternState.advance, isHeard]⟩
  refine ⟨entries, isWatchers, presidesThen, fun entry isEntry => ?_⟩
  refine (begin entry isEntry).frame fun {ticket state} found isOwn => ?_
  rw [states_step presides.isAgenda answer, get?_update, if_neg, found]
  rintro rfl
  cases found.symm.trans
    (get?_createAll_of_live sound ticket compiled.blank (watchers.map Watcher.number) live)
  have behindRoot := conjoins.behindRoot entry.1 (isWatchers ▸ List.mem_map_of_mem isEntry)
  exact absurd isOwn (Nat.ne_of_lt behindRoot)

/-- The engine of a conjunction starts where the scan of its watchers starts. -/
theorem reaches_start
    (table : compiled.Sound)
    (conjoins : compiled.Conjoins watchers)
    (limit patience : Nat)
    (now : Int) :
    Reaches (4 * watchers.length + 2) (opened compiled limit patience now) fun reached =>
      reached.isAtRest = true ∧
        Mirrors compiled watchers reached (Scan.start compiled.blank watchers) := by
  obtain ⟨top, opens⟩ := exists_presides_opened table conjoins limit patience now
  obtain ⟨entries, isWatchers, presides, begin⟩ := opens.creates table conjoins
  rw [List.append_nil] at presides
  have nonempty : entries ≠ [] := by
    rintro rfl
    cases isWatchers
    exact table.conjunctionNonempty conjoins.root
  have convening : Convening compiled watchers _ top [] [] entries :=
    ⟨isWatchers, List.forall_mem_nil _, presides, List.forall_mem_nil _, begin⟩
  have reaches := convening.reaches table conjoins fun isEmpty => absurd isEmpty nonempty
  have isLength : entries.length = watchers.length := by rw [← isWatchers, List.length_map]
  rw [isLength] at reaches
  exact .step reaches

end Start

section Runs

variable {schema : Schema} {operands : List FilterOperand} {compiled : CompiledPattern}
  {watchers : List Watcher} {engine : Engine} {scan : Scan} {limit patience : Nat} {now : Int}
  {calls : List Call}

/-- Events move the engine as they move the scan. -/
theorem Mirrors.feed
    {expr : PatternExpr}
    (success : CompiledPattern.compile schema expr = .ok compiled)
    (conjoins : compiled.Conjoins watchers)
    (run : Run compiled limit patience now calls engine)
    (mirrors : Mirrors compiled watchers engine scan)
    (enough : 4 * watchers.length ≤ patience)
    (events : List Event) :
    let shown := feed Engine.advance engine events
    let scanned := feed (Scan.next compiled.blank) scan events
    Run compiled limit patience now (calls ++ events.map .event) shown.1 ∧
      Mirrors compiled watchers shown.1 scanned.1 ∧ shown.2 = scanned.2 := by
  induction events generalizing engine scan calls with
  | nil =>
      rw [List.map_nil, List.append_nil]
      exact ⟨run, mirrors, rfl⟩
  | cons event rest inductionHypothesis =>
      obtain ⟨atRest, isNext, sameRows⟩ := mirrors.advance success conjoins run enough event
      obtain ⟨runs, isLast, isRows⟩ := inductionHypothesis (.call (.event event) run atRest) isNext
      refine ⟨?_, isLast, congrArg₂ List.cons sameRows isRows⟩
      rw [List.map_cons, ← List.singleton_append, ← List.append_assoc]
      exact runs

/--
The engine of a conjunction of filters and negated filters does what the scan of its watchers does.
Whatever events it is shown, each call returns and hands out the matches of the scan, and the engine
has finished exactly when the scan has ended.  Every match has, for each operand that is not negated,
the first event that its filter accepts.
-/
theorem conjunction_refines_scan
    (success :
      CompiledPattern.compile schema (.conjunction (operands.map FilterOperand.expr)) =
        .ok compiled)
    (distinct : (operands.filterMap fun operand => operand.spec.tag).Nodup) :
    ∃ watchers : List Watcher,
      List.Forall₂ (compiled.WatchesFor schema) operands watchers ∧
      ∀ (limit patience : Nat) (now : Int) (events : List Event),
        4 * operands.length + 2 ≤ patience →
          let started := start compiled limit patience now
          let scan := Scan.start compiled.blank watchers
          let shown := feed Engine.advance started events
          let scanned := feed (Scan.next compiled.blank) scan events
          Run compiled limit patience now (events.map .event) shown.1 ∧
            started.completed = scan.completed ∧
            shown.2 = scanned.2 ∧
            shown.1.isFinished = scanned.1.watches.isNone ∧
            ∀ row ∈ shown.2.flatten, FindsFirst compiled.blank watchers events row := by
  obtain ⟨watchers, watchesFor, conjoins⟩ := CompiledPattern.exists_conjoins success distinct
  refine ⟨watchers, watchesFor, ?_⟩
  intro limit patience now events enough
  have table := CompiledPattern.sound_of_compile success
  rw [watchesFor.length_eq] at enough
  obtain ⟨atRest, mirrors⟩ := (reaches_start table conjoins limit patience now).settle enough
  obtain ⟨runs, isLast, sameRows⟩ :=
    mirrors.feed success conjoins (.start atRest) (Nat.le_of_add_right_le enough) events
  refine ⟨runs, mirrors.completed_eq, sameRows, isLast.isFinished_eq, ?_⟩
  have inRange : ∀ watcher ∈ watchers, ∀ slot ∈ watcher.slot, slot < compiled.blank.length := by
    rw [show compiled.blank.length = compiled.width from List.length_replicate]
    exact fun watcher member => slot_lt_of_conjoins table conjoins member
  have finds := Scan.findsFirst_of_feed conjoins.slotsNodup inRange
    (Scan.foundIn_start compiled.blank watchers) events
  rw [← sameRows, List.nil_append] at finds
  exact finds

/-- A schema with ticks and tocks. -/
def tickTockSchema : Schema := tickSchema.addShape ⟨"Tock", true, [], []⟩

/-- An event of the other type. -/
def tock : Event := ⟨.given 1, "Tock", []⟩

/-- A pattern that matches the first tick when no tock comes before it, compiled. -/
def tickWithoutTock : CompiledPattern :=
  ⟨[.conjunction [1, 2], .filter "Tick" (some 0) none, .negation 3, .filter "Tock" none none],
    [⟨"t", "Tick", 0, []⟩]⟩

/-- The pattern hands out a tick that comes first, and a tock that comes first ends it. -/
theorem conjunction_refines_scan_tickWithoutTock :
    CompiledPattern.compile tickTockSchema
        (.conjunction
          [.filter ⟨some "t", "Tick", none⟩, .negation (.filter ⟨none, "Tock", none⟩)]) =
      .ok tickWithoutTock ∧
    (feed Engine.advance (start tickWithoutTock 10 10 0) [tick, tock]).2 =
      [[[.event tick]], []] ∧
    (feed Engine.advance (start tickWithoutTock 10 10 0) [tock, tick]).2 = [[], []] := by
  have compiles : CompiledPattern.compile tickTockSchema
      (.conjunction
        ([⟨⟨some "t", "Tick", none⟩, false⟩, ⟨⟨none, "Tock", none⟩, true⟩].map
          FilterOperand.expr)) =
    .ok tickWithoutTock := rfl
  obtain ⟨watchers, watchesFor, refines⟩ := conjunction_refines_scan compiles (by decide)
  -- The watchers are known but for their numbers, which a scan does not read.
  obtain _ | @⟨_, ⟨_, _, _, _, _⟩, _, _, watchesTick, _ |
    @⟨_, ⟨_, _, _, _, _⟩, _, _, watchesTock, _ | _⟩⟩ := watchesFor
  cases watchesTick.isNegated
  cases watchesTock.isNegated
  cases watchesTick.filter
  cases watchesTock.filter
  obtain ⟨_, _, tickFirst, _, _⟩ := refines 10 10 0 [tick, tock] (by decide)
  obtain ⟨_, _, tockFirst, _, _⟩ := refines 10 10 0 [tock, tick] (by decide)
  exact ⟨rfl, tickFirst, tockFirst⟩

end Runs

end Engine

end EventQuery
