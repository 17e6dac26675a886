import EventQuery.Proofs.Pattern.Presiding
import Mathlib.Data.List.Sort

namespace EventQuery

/-!
# Conjunctions as scans

The engine of a conjunction of filters and negated filters does what the scan of its watchers does,
whatever events it is shown.
-/

section Merge

variable {width : Nat} {row : Row} {watch : Watch} {watches : List Watch}

/-- Merging the bindings of one watcher binds its event, where nothing was bound. -/
private theorem merge_bind
    (isLong : row.length = width)
    (unbound : ∀ slot ∈ watch.watcher.slot, slot < width ∧ Row.get row slot = .null) :
    (row.mapIdx fun slot value =>
        if value.isNull then Row.get (watch.bind (List.replicate width .null)) slot else value) =
      watch.bind row := by
  -- A slot at which nothing is bound stays as it is.
  have stays : ∀ value : Value, (if value.isNull then Value.null else value) = value := by
    intro value
    split
    next isNull => exact (Value.eq_null_of_isNull isNull).symm
    next => rfl
  have leaves : (row.mapIdx fun slot value =>
      if value.isNull then Row.get (List.replicate width Value.null) slot else value) = row := by
    refine List.ext_getElem? fun slot => ?_
    rw [List.getElem?_mapIdx, Row.get_replicate_null]
    simp only [stays, Option.map_id']
  unfold Watch.bind
  cases watch.found with
  | none => exact leaves
  | some event =>
      cases isSlot : watch.watcher.slot with
      | none => exact leaves
      | some bound =>
          obtain ⟨inRange, isUnbound⟩ := unbound bound isSlot
          refine List.ext_getElem? fun slot => ?_
          simp only [bindEvent, List.getElem?_mapIdx]
          by_cases same : bound = slot
          · subst same
            have inRow : bound < row.length := isLong ▸ inRange
            have isNull : row[bound] = .null := by
              simpa [Row.get, List.getD_eq_getElem?_getD, inRow] using isUnbound
            simp [Row.get, inRow, isNull, inRange, Value.isNull]
          · rw [List.getElem?_set_ne same, Row.get_set_of_ne _ same, Row.get_replicate_null]
            simp only [stays, Option.map_id']

/-- Merging the bindings of several watchers binds the event of each. -/
private theorem foldl_merge
    (isLong : row.length = width)
    (distinct : (watches.filterMap fun watch => watch.watcher.slot).Nodup)
    (unbound :
      ∀ watch ∈ watches, ∀ slot ∈ watch.watcher.slot, slot < width ∧ Row.get row slot = .null) :
    (watches.map (Watch.bind (List.replicate width .null))).foldl
        (fun merged bindings =>
          merged.mapIdx fun slot value => if value.isNull then Row.get bindings slot else value)
        row =
      Watch.bindings row watches := by
  induction watches generalizing row with
  | nil => rfl
  | cons watch rest inductionHypothesis =>
      obtain ⟨here, later⟩ := List.forall_mem_cons.mp unbound
      rw [List.map_cons, List.foldl_cons, merge_bind isLong here, Watch.bindings, List.foldl_cons]
      refine inductionHypothesis ?_ (distinct.sublist ((List.sublist_cons_self _ _).filterMap _)) ?_
      · rw [Watch.bind]
        split
        · exact isLong
        · rw [length_bindEvent, isLong]
      · intro other inRest slot isSlot
        obtain ⟨inRange, isUnbound⟩ := later other inRest slot isSlot
        refine ⟨inRange, ?_⟩
        have apart : watch.watcher.slot ≠ some slot := by
          intro same
          simp only [List.filterMap_cons, same, List.nodup_cons] at distinct
          exact distinct.1 (List.mem_filterMap.mpr ⟨other, inRest, isSlot⟩)
        rw [← isUnbound, Watch.bind]
        cases watch.found with
        | none => rfl
        | some event =>
            cases hasSlot : watch.watcher.slot with
            | none => rfl
            | some bound =>
                exact Row.get_set_of_ne row
                  (fun same => apart (hasSlot.trans (congrArg some same))) _

end Merge

namespace Engine

section Conjoins

variable {compiled : CompiledPattern} {watchers : List Watcher} {engine : Engine} {top : Ticket}
  {posts : List Post}

/-- The slots of watchers are slots of the pattern. -/
theorem slot_lt_of_conjoins
    (table : compiled.Sound)
    (conjoins : compiled.Conjoins watchers)
    {watcher : Watcher}
    (member : watcher ∈ watchers) :
    ∀ slot ∈ watcher.slot, slot < compiled.width := by
  intro slot isSlot
  refine table.slotRange (conjoins.filters watcher member) slot ?_
  rw [Watcher.filter, isSlot]
  exact List.mem_singleton_self slot

/-- A conjunction whose operands need no further event merges to the bindings of its watchers. -/
theorem merge_eq_bindings
    (table : compiled.Sound)
    (conjoins : compiled.Conjoins watchers)
    (isWatchers : posts.map Post.watcher = watchers)
    (stands : ∀ post ∈ posts, Stands compiled.blank engine top post)
    (satisfied : (posts.map Post.watch).all Watch.isSatisfied = true) :
    Conjunct.merge compiled.blank (posts.map Post.conjunct) =
      Watch.bindings compiled.blank (posts.map Post.watch) := by
  have rows : (posts.map Post.conjunct).filterMap Conjunct.bindings =
      (posts.map Post.watch).map (Watch.bind compiled.blank) := by
    rw [List.filterMap_map, List.map_map]
    rw [List.all_map, List.all_eq_true] at satisfied
    refine (List.filterMap_congr fun post member => ?_).trans
      (congrFun List.filterMap_eq_map posts)
    exact (stands post member).bindings_eq (satisfied post member)
  have slots : ((posts.map Post.watch).filterMap fun watch => watch.watcher.slot) =
      watchers.filterMap Watcher.slot := by
    rw [← isWatchers, List.filterMap_map, List.filterMap_map]
    rfl
  rw [Conjunct.merge, rows]
  refine foldl_merge List.length_replicate (slots ▸ conjoins.slotsNodup) ?_
  intro watch member slot isSlot
  obtain ⟨post, isPost, rfl⟩ := List.mem_map.mp member
  exact ⟨slot_lt_of_conjoins table conjoins (isWatchers ▸ List.mem_map_of_mem isPost) slot isSlot,
    Row.get_replicate_null _ _⟩

/-- The conjunction has bindings of all operands when none of them needs a further event. -/
theorem all_isSome_bindings
    (stands : ∀ post ∈ posts, Stands compiled.blank engine top post) :
    ((posts.map Post.conjunct).all fun operand => operand.bindings.isSome) =
      (posts.map Post.watch).all Watch.isSatisfied := by
  rw [List.all_map, List.all_map, Bool.eq_iff_iff, List.all_eq_true, List.all_eq_true]
  exact forall₂_congr fun post member => by
    rw [Function.comp_apply, Function.comp_apply, (stands post member).isSome_bindings]

end Conjoins

/-- What a filter of an operand is shown of an event. -/
def Post.offer? (event : Event) (post : Post) : Option Task :=
  if post.watcher.eventType = event.kind then post.leaf.map fun leaf => .offer leaf event else none

/-- The engine stands where a scan for some watchers stands. -/
def Mirrors
    (compiled : CompiledPattern)
    (watchers : List Watcher)
    (engine : Engine)
    (scan : Scan) : Prop :=
  match scan.watches with
  | none => engine.root = none ∧ engine.completed = scan.completed
  | some watches =>
      ∃ (top : Ticket) (posts : List Post), posts.map Post.watch = watches ∧
        posts.map Post.watcher = watchers ∧
          Presides compiled engine top (posts.map Post.conjunct) [] scan.completed ∧
            ∀ post ∈ posts, Stands compiled.blank engine top post

section Visits

variable {compiled : CompiledPattern} {watchers : List Watcher} {engine : Engine} {top : Ticket}
  {completed : List Row}

/-- The operands beside one have other nodes. -/
theorem apart_of_conjoins
    (conjoins : compiled.Conjoins watchers)
    {before after : List Watcher}
    {watcher other : Watcher}
    (isWatchers : before ++ watcher :: after = watchers)
    (member : other ∈ before ++ after) :
    (other.number ≠ watcher.number ∧ other.leaf ≠ watcher.number) ∧
      other.number ≠ watcher.leaf ∧ other.leaf ≠ watcher.leaf := by
  have ascending := isWatchers ▸ conjoins.ascending
  rw [List.pairwise_append] at ascending
  obtain ⟨_, later, earlier⟩ := ascending
  have here := watcher.number_le_leaf
  have there := other.number_le_leaf
  rcases List.mem_append.mp member with isBefore | isAfter
  · have := earlier other isBefore watcher List.mem_cons_self
    omega
  · have := (List.pairwise_cons.mp later).1 other isAfter
    omega

/-- The operands beside one stand as before when one of its own states is gone. -/
theorem stands_beside
    (conjoins : compiled.Conjoins watchers)
    {blank : Row}
    {later : Engine}
    {before after : List Post}
    {post : Post}
    {gone : Ticket}
    {state : PatternState}
    (isWatchers : (before ++ post :: after).map Post.watcher = watchers)
    (stands : ∀ standing ∈ before ++ post :: after, Stands blank engine top standing)
    (goneLive : engine.states.get? gone = some state)
    (isOwn : state.node = post.watcher.number ∨ state.node = post.watcher.leaf)
    (keeps : ∀ other, other ≠ gone → later.states.get? other = engine.states.get? other) :
    (∀ standing ∈ before, Stands blank later top standing) ∧
      ∀ standing ∈ after, Stands blank later top standing := by
  rw [List.map_append, List.map_cons] at isWatchers
  have beside : ∀ standing ∈ before ++ after, Stands blank engine top standing →
      Stands blank later top standing := by
    intro standing isBeside here
    obtain ⟨apartNumber, apartLeaf⟩ := apart_of_conjoins conjoins isWatchers
      (List.map_append ▸ List.mem_map_of_mem isBeside)
    refine here.frame fun {ticket held} live isStanding => ?_
    rw [keeps ticket, live]
    rintro rfl
    cases live.symm.trans goneLive
    omega
  obtain ⟨standsBefore, standsAfter⟩ := List.forall_mem_append.mp stands
  refine ⟨fun standing isBefore => ?_, fun standing isAfter => ?_⟩
  · exact beside standing (List.mem_append_left _ isBefore) (standsBefore standing isBefore)
  · exact beside standing (List.mem_append_right _ isAfter)
      (standsAfter standing (List.mem_cons_of_mem _ isAfter))

/--
The top is told of an operand.  With bindings of all operands it matches and ends, and else it goes
on with what it was told.
-/
theorem Presides.collects
    {before after : List Post}
    {post : Post}
    {held : Conjunct}
    {ticket : Ticket}
    {row : Row}
    {isLast : Bool}
    {rest : List Task}
    (table : compiled.Sound)
    (conjoins : compiled.Conjoins watchers)
    (stands : ∀ standing ∈ before ++ post :: after, Stands compiled.blank engine top standing)
    (isWatchers : (before ++ post :: after).map Post.watcher = watchers)
    (isSender : held.state = some ticket)
    (presides :
      Presides compiled engine top (before.map Post.conjunct ++ held :: after.map Post.conjunct)
        (.report (some top) ticket (.matched row isLast) :: rest) completed)
    (isTold : post.conjunct = ⟨if isLast then none else some ticket, some row⟩) :
    if ((before ++ post :: after).map Post.watch).all Watch.isSatisfied then
      Reaches (rest.length + 2) engine fun reached =>
        reached.isAtRest = true ∧ reached.root = none ∧
          reached.completed = completed ++
            [Watch.bindings compiled.blank ((before ++ post :: after).map Post.watch)]
    else
      Presides compiled engine.step top ((before ++ post :: after).map Post.conjunct) rest
          completed ∧
        ∀ standing ∈ before ++ post :: after, Stands compiled.blank engine.step top standing := by
  have told : before.map Post.conjunct ++
      ⟨if isLast then none else some ticket, some row⟩ :: after.map Post.conjunct =
        (before ++ post :: after).map Post.conjunct := by
    rw [List.map_append, List.map_cons, isTold]
  have satisfied := all_isSome_bindings stands
  split
  next complete =>
      have reaches := presides.reaches_match table conjoins isSender
        (told ▸ satisfied.trans complete)
      rwa [told, merge_eq_bindings table conjoins isWatchers stands complete] at reaches
  next incomplete =>
      obtain ⟨goesOn, keeps⟩ := presides.record table conjoins isSender
        (told ▸ satisfied.trans (Bool.eq_false_iff.mpr incomplete))
      rw [told] at goesOn
      refine ⟨goesOn, fun standing isStanding => (stands standing isStanding).frame ?_⟩
      intro other state live isOwn
      refine (keeps other (presides.ne_top live ?_)).trans live
      have behindRoot := conjoins.behindRoot standing.watcher
        (isWatchers ▸ List.mem_map_of_mem isStanding)
      have := standing.watcher.number_le_leaf
      omega

/-- The filter of an operand that still waits is shown an event of its type. -/
private theorem filterMap_offer?_of_leaf
    {event : Event}
    {post : Post}
    {leaf : Ticket}
    (isType : post.watcher.eventType = event.kind)
    (isLeaf : post.leaf = some leaf)
    (rest : List Post) :
    (post :: rest).filterMap (Post.offer? event) =
      .offer leaf event :: rest.filterMap (Post.offer? event) := by
  refine List.filterMap_cons_some ?_
  rw [Post.offer?, if_pos isType, isLeaf, Option.map_some]

/-- An operand that does not accept an event lets it pass. -/
theorem Presides.passesOver
    {conjuncts : List Conjunct}
    {event : Event}
    {post : Post}
    {rest : List Post}
    (table : compiled.Sound)
    (conjoins : compiled.Conjoins watchers)
    (member : post.watcher ∈ watchers)
    (presides :
      Presides compiled engine top conjuncts ((post :: rest).filterMap (Post.offer? event))
        completed)
    (stands : Stands compiled.blank engine top post)
    (skips : (post.watch.found.isSome || !post.watch.watcher.accepts compiled.blank event) = true) :
    Reaches 1 engine fun later =>
      Presides compiled later top conjuncts (rest.filterMap (Post.offer? event)) completed ∧
        later.states = engine.states := by
  -- A filter that is shown the event refuses it.
  have refuses : ∀ {leaf parent : Ticket} {created : Nat}, post.leaf = some leaf →
      post.watch.found = none → post.watcher.eventType = event.kind →
        engine.states.get? leaf =
            some ⟨post.watcher.leaf, some parent, created, compiled.blank, .filter⟩ →
          Presides compiled engine.step top conjuncts (rest.filterMap (Post.offer? event))
              completed ∧
            engine.step.states = engine.states := by
    intro leaf parent created isLeaf unbound isType leafLive
    rw [filterMap_offer?_of_leaf isType isLeaf] at presides
    have offered := presides.offer table conjoins member leafLive
    have fails : ¬Node.holds post.watcher.predicate (compiled.blank ++ [.event event]) = true := by
      rw [Post.watcher] at isType ⊢
      simpa [unbound, Watcher.accepts, isType] using skips
    rwa [if_neg fails] at offered
  by_cases isType : post.watcher.eventType = event.kind
  · cases stands with
    | waits _ live => exact .step (.now (refuses rfl rfl isType live))
    | absent _ _ leafLive => exact .step (.now (refuses rfl rfl isType leafLive))
    | found _ =>
        rw [List.filterMap_cons_none (by simp [Post.offer?])] at presides
        exact (Reaches.now ⟨presides, rfl⟩).mono (Nat.zero_le _)
  · have unshown : Post.offer? event post = none := if_neg isType
    rw [List.filterMap_cons_none unshown] at presides
    exact (Reaches.now ⟨presides, rfl⟩).mono (Nat.zero_le _)

/-- An event visits the operands of the engine as it visits the watchers of the scan. -/
theorem Presides.visits
    (table : compiled.Sound)
    (conjoins : compiled.Conjoins watchers)
    (event : Event)
    {visited todo : List Post}
    (isWatchers : (visited ++ todo).map Post.watcher = watchers)
    (presides :
      Presides compiled engine top ((visited ++ todo).map Post.conjunct)
        (todo.filterMap (Post.offer? event)) completed)
    (stands : ∀ post ∈ visited ++ todo, Stands compiled.blank engine top post) :
    Reaches (4 * todo.length) engine fun reached =>
      reached.isAtRest = true ∧
        Mirrors compiled watchers reached
          ((visit compiled.blank event (visited.map Post.watch) (todo.map Post.watch)).after
            compiled.blank completed) := by
  induction todo generalizing visited engine with
  | nil =>
      rw [List.append_nil] at presides stands isWatchers
      exact .now ⟨List.isEmpty_iff.mpr presides.isAgenda, top, visited, rfl, isWatchers, presides,
        stands⟩
  | cons post rest inductionHypothesis =>
      have member : post.watcher ∈ watchers :=
        isWatchers ▸ List.mem_map_of_mem (List.mem_append_right _ List.mem_cons_self)
      have shorter : (rest.filterMap (Post.offer? event)).length ≤ rest.length :=
        List.length_filterMap_le _ _
      rw [List.length_cons]
      -- The operand is passed over, and the event visits the others.
      have passes : ∀ {later : Engine} (other : Post), other.watcher = post.watcher →
          Presides compiled later top ((visited ++ other :: rest).map Post.conjunct)
              (rest.filterMap (Post.offer? event)) completed →
            (∀ standing ∈ visited ++ other :: rest, Stands compiled.blank later top standing) →
              Reaches (4 * rest.length) later fun reached =>
                reached.isAtRest = true ∧
                  Mirrors compiled watchers reached
                    ((visit compiled.blank event (visited.map Post.watch ++ [other.watch])
                      (rest.map Post.watch)).after compiled.blank completed) := by
        intro later other sameWatcher presidesThen standsThen
        have isMoved : visited ++ other :: rest = (visited ++ [other]) ++ rest := by simp
        rw [isMoved] at presidesThen standsThen
        have reaches := inductionHypothesis (by rw [← isWatchers]; simp [sameWatcher])
          presidesThen standsThen
        rwa [List.map_append, List.map_singleton] at reaches
      have here := stands post (by simp)
      rw [List.map_cons, visit]
      by_cases skips :
          (post.watch.found.isSome || !post.watch.watcher.accepts compiled.blank event) = true
      · rw [if_pos skips]
        have passed := (presides.passesOver table conjoins member here skips).bind
          fun passed => passes post rfl passed.1 fun standing isStanding =>
            (stands standing isStanding).frame fun live _ => passed.2 ▸ live
        exact passed.mono (by omega)
      · rw [if_neg skips]
        obtain ⟨unbound, accepts⟩ : post.watch.found = none ∧
            post.watch.watcher.accepts compiled.blank event = true := by simpa using skips
        obtain ⟨isType, holds⟩ : post.watcher.eventType = event.kind ∧
            Node.holds post.watcher.predicate (compiled.blank ++ [.event event]) = true := by
          simpa [Watcher.accepts, Post.watcher] using accepts
        cases here with
        | found _ => cases unbound
        | @absent watcher ticket leaf created later negated live leafLive =>
            rw [if_pos negated]
            rw [filterMap_offer?_of_leaf isType rfl] at presides
            have offered := presides.offer table conjoins member leafLive
            rw [if_pos holds] at offered
            obtain ⟨told, leafGone, keeps⟩ := offered
            have apart : ticket ≠ leaf := by
              rintro rfl
              have same := congrArg PatternState.progress
                (Option.some.inj (live.symm.trans leafLive))
              cases same
            exact (Reaches.step (told.reaches_veto_of_absent table conjoins member negated
              ((keeps ticket apart).trans live) leafGone)).mono (by omega)
        | @waits watcher ticket created positive live =>
            rw [if_neg (by simp [positive])]
            rw [filterMap_offer?_of_leaf isType rfl] at presides
            have offered := presides.offer table conjoins member live
            rw [if_pos holds] at offered
            obtain ⟨told, _, keeps⟩ := offered
            rw [List.map_append, List.map_cons] at told
            have standing := stands_beside conjoins isWatchers stands live (.inr rfl) keeps
            have collected := Presides.collects table conjoins
              (List.forall_mem_append.mpr
                ⟨standing.1, List.forall_mem_cons.mpr ⟨.found positive, standing.2⟩⟩)
              (by rw [← isWatchers]; simp [Post.watcher]) rfl told rfl
            rw [List.map_append, List.map_cons] at collected
            by_cases complete : (visited.map Post.watch ++
                ⟨watcher, some event⟩ :: rest.map Post.watch).all Watch.isSatisfied = true
            · rw [if_pos complete]
              rw [if_pos complete] at collected
              exact (Reaches.step collected).mono (by omega)
            · rw [if_neg complete]
              rw [if_neg complete] at collected
              obtain ⟨goesOn, standsOn⟩ := collected
              have passed := passes ⟨⟨watcher, some event⟩,
                ⟨none, some (bindEvent compiled.blank watcher.slot event)⟩, none⟩ rfl goesOn standsOn
              exact (Reaches.step (.step passed)).mono (by omega)

end Visits

section Candidates

variable {compiled : CompiledPattern} {watchers : List Watcher} {engine : Engine} {top : Ticket}
  {completed : List Row} {posts : List Post} {ticket leaf : Ticket}

/-- The filter of an operand is live. -/
private theorem Stands.leaf_live
    {blank : Row}
    {post : Post}
    (stands : Stands blank engine top post)
    (isLeaf : post.leaf = some leaf) :
    ∃ parent created, engine.states.get? leaf =
      some ⟨post.watcher.leaf, some parent, created, blank, .filter⟩ := by
  cases stands with
  | waits _ live =>
      cases isLeaf
      exact ⟨_, _, live⟩
  | absent _ _ leafLive =>
      cases isLeaf
      exact ⟨_, _, leafLive⟩
  | found _ => cases isLeaf

/-- What an operand runs of itself lists its filter and nothing else. -/
private theorem Stands.eq_leaf_of_mem_children
    {blank : Row}
    {post : Post}
    {owner : Ticket}
    {state : PatternState}
    (stands : Stands blank engine top post)
    (isOwn : post.conjunct.state = some owner ∨ post.leaf = some owner)
    (live : engine.states.get? owner = some state)
    (member : ticket ∈ state.progress.children) :
    post.leaf = some ticket := by
  cases stands with
  | waits _ here =>
      rcases isOwn with isTicket | isLeaf
      · cases isTicket
        cases live.symm.trans here
        cases member
      · cases isLeaf
        cases live.symm.trans here
        cases member
  | absent _ here leafLive =>
      rcases isOwn with isTicket | isLeaf
      · cases isTicket
        cases live.symm.trans here
        exact congrArg some (List.mem_singleton.mp member).symm
      · cases isLeaf
        cases live.symm.trans leafLive
        cases member
  | found _ => simp at isOwn

/-- Nothing but the top and its operands is live. -/
theorem Presides.known
    (presides : Presides compiled engine top (posts.map Post.conjunct) [] completed)
    (stands : ∀ post ∈ posts, Stands compiled.blank engine top post)
    {state : PatternState}
    (live : engine.states.get? ticket = some state) :
    ticket = top ∨ ∃ post ∈ posts, post.conjunct.state = some ticket ∨ post.leaf = some ticket := by
  obtain ⟨_, _, due⟩ := presides.due
  have linked := (due.coherent (List.isEmpty_iff.mpr presides.isAgenda)).linked
  -- Each parent is older, and the oldest is the top.
  induction age : state.created using Nat.strongRecOn generalizing ticket state with
  | ind created inductionHypothesis =>
      cases isParent : state.parent with
      | none =>
          have isRoot := (linked.top (.inl live) (by simp) isParent).1
          exact .inl (Option.some.inj (isRoot.symm.trans presides.root))
      | some parent =>
          obtain ⟨owner, node, ownerLive, _, adopts, older⟩ :=
            linked.adopted (.inl live) (by simp) isParent
          have member := adopts.mem_children
          rcases inductionHypothesis owner.created (age ▸ older) ownerLive rfl with
            rfl | ⟨post, isPost, isOwn⟩
          · obtain ⟨_, topLive⟩ := presides.live
            cases ownerLive.symm.trans topLive
            obtain ⟨conjunct, inConjuncts, isState⟩ := List.mem_filterMap.mp member
            obtain ⟨post, isPost, rfl⟩ := List.mem_map.mp inConjuncts
            exact .inr ⟨post, isPost, .inl isState⟩
          · exact .inr ⟨post, isPost,
              .inr ((stands post isPost).eq_leaf_of_mem_children isOwn ownerLive member)⟩

/-- The index of the waiting filters lists the live ones, under their ranks. -/
theorem Presides.mem_filters_iff
    (presides : Presides compiled engine top (posts.map Post.conjunct) [] completed)
    (rank : Rank) :
    (rank, ticket) ∈ engine.filters ↔
      ∃ state, engine.states.get? ticket = some state ∧ state.filterRank? = some rank := by
  obtain ⟨_, _, due⟩ := presides.due
  rw [(due.coherent (List.isEmpty_iff.mpr presides.isAgenda)).indexed.filters rank ticket]
  simp

/-- The waiting filters are those of the operands. -/
theorem Presides.mem_map_filters_iff
    (presides : Presides compiled engine top (posts.map Post.conjunct) [] completed)
    (stands : ∀ post ∈ posts, Stands compiled.blank engine top post) :
    ticket ∈ engine.filters.map Prod.snd ↔ ticket ∈ posts.filterMap Post.leaf := by
  rw [List.mem_map, List.mem_filterMap]
  constructor
  · rintro ⟨⟨rank, other⟩, inIndex, rfl⟩
    obtain ⟨state, live, isRank⟩ := (presides.mem_filters_iff rank).mp inIndex
    have isFilter := (PatternState.filterRank?_eq_some_iff.mp isRank).1
    rcases presides.known stands live with rfl | ⟨post, isPost, isOwn⟩
    · obtain ⟨_, topLive⟩ := presides.live
      cases live.symm.trans topLive
      cases isFilter
    · refine ⟨post, isPost, ?_⟩
      cases stands post isPost with
      | waits _ _ => simpa using isOwn
      | absent _ here _ =>
          rcases isOwn with isTicket | isLeaf
          · cases isTicket
            cases live.symm.trans here
            cases isFilter
          · exact isLeaf
      | found _ => simp at isOwn
  · rintro ⟨post, isPost, isLeaf⟩
    obtain ⟨parent, created, live⟩ := (stands post isPost).leaf_live isLeaf
    exact ⟨(⟨post.watcher.leaf, created⟩, ticket), (presides.mem_filters_iff _).mpr
      ⟨_, live, PatternState.filterRank?_eq_some_iff.mpr ⟨rfl, rfl⟩⟩, rfl⟩

/-- The waiting filters are those of the operands, in their order. -/
theorem Presides.filters_eq
    (conjoins : compiled.Conjoins watchers)
    (isWatchers : posts.map Post.watcher = watchers)
    (presides : Presides compiled engine top (posts.map Post.conjunct) [] completed)
    (stands : ∀ post ∈ posts, Stands compiled.blank engine top post) :
    engine.filters.map Prod.snd = posts.filterMap Post.leaf := by
  obtain ⟨_, _, due⟩ := presides.due
  have indexed := (due.coherent (List.isEmpty_iff.mpr presides.isAgenda)).indexed
  -- Filters are told apart by their nodes.
  let number : Ticket → Nat := fun ticket => ((engine.states.get? ticket).map PatternState.node).getD 0
  have numberOf : ∀ {ticket state}, engine.states.get? ticket = some state →
      number ticket = state.node := by
    intro ticket state live
    simp only [number, live, Option.map_some, Option.getD_some]
  have leafNumber : ∀ post ∈ posts, ∀ leaf ∈ post.leaf, number leaf = post.watcher.leaf := by
    intro post member leaf isLeaf
    obtain ⟨_, _, live⟩ := (stands post member).leaf_live isLeaf
    exact numberOf live
  have ascending : (posts.filterMap Post.leaf).Pairwise fun first second =>
      number first < number second := by
    have order := isWatchers ▸ conjoins.ascending
    rw [List.pairwise_map] at order
    rw [List.pairwise_filterMap]
    refine order.imp_of_mem fun isFirst isSecond before first firstLeaf second secondLeaf => ?_
    rw [leafNumber _ isFirst first firstLeaf, leafNumber _ isSecond second secondLeaf]
    exact Nat.lt_of_lt_of_le before (Watcher.number_le_leaf _)
  have sorted : (engine.filters.map Prod.snd).Pairwise fun first second =>
      number first < number second := by
    rw [List.pairwise_map]
    refine indexed.filtersSorted.imp_of_mem fun {first second} isFirst isSecond before => ?_
    obtain ⟨state, live, isRank⟩ := (presides.mem_filters_iff first.1).mp isFirst
    obtain ⟨other, otherLive, isOther⟩ := (presides.mem_filters_iff second.1).mp isSecond
    obtain ⟨_, isRank⟩ := PatternState.filterRank?_eq_some_iff.mp isRank
    obtain ⟨_, isOther⟩ := PatternState.filterRank?_eq_some_iff.mp isOther
    rw [isRank, isOther, Rank.before_iff] at before
    rw [numberOf live, numberOf otherLive]
    rcases before with before | ⟨sameNode, created⟩
    · exact Int.ofNat_lt.mp before
    · -- Filters of one node are one filter.
      exfalso
      have distinct : ((posts.filterMap Post.leaf).map number).Nodup :=
        List.pairwise_map.mpr (ascending.imp Nat.ne_of_lt)
      have isSame : first.2 = second.2 := by
        refine List.inj_on_of_nodup_map distinct
          ((presides.mem_map_filters_iff stands).mp (List.mem_map_of_mem isFirst))
          ((presides.mem_map_filters_iff stands).mp (List.mem_map_of_mem isSecond)) ?_
        rw [numberOf live, numberOf otherLive]
        exact Int.ofNat_inj.mp sameNode
      rw [isSame] at live
      cases live.symm.trans otherLive
      exact Nat.lt_irrefl _ created
  have irreflexive : Std.Irrefl fun first second => number first < number second :=
    ⟨fun _ => Nat.lt_irrefl _⟩
  have antisymmetric : Std.Antisymm fun first second => number first < number second :=
    ⟨fun _ _ before after => absurd (Nat.lt_trans before after) (Nat.lt_irrefl _)⟩
  exact sorted.eq_of_mem_iff ascending fun _ => presides.mem_map_filters_iff stands

/-- A state, when it is a filter for events of a type. -/
def waitsFor? (engine : Engine) (eventType : String) (ticket : Ticket) : Option Ticket :=
  match (engine.states.get? ticket).bind engine.nodeOf with
  | some (.filter awaited _ _) => if awaited = eventType then some ticket else none
  | _ => none

/-- The filters that are shown an event are those of the operands that wait for its type. -/
theorem Presides.offers_eq
    (conjoins : compiled.Conjoins watchers)
    (isWatchers : posts.map Post.watcher = watchers)
    (presides : Presides compiled engine top (posts.map Post.conjunct) [] completed)
    (stands : ∀ post ∈ posts, Stands compiled.blank engine top post)
    (event : Event) :
    ((engine.candidates event.kind).map fun ticket => Task.offer ticket event) =
      posts.filterMap (Post.offer? event) := by
  have isMapped : engine.candidates event.kind =
      (engine.filters.map Prod.snd).filterMap (engine.waitsFor? event.kind) := by
    rw [candidates, List.filterMap_map]
    rfl
  rw [isMapped, presides.filters_eq conjoins isWatchers stands, List.filterMap_filterMap,
    List.map_filterMap]
  refine List.filterMap_congr fun post member => ?_
  rw [Post.offer?]
  cases isLeaf : post.leaf with
  | none => simp
  | some leaf =>
      obtain ⟨_, _, live⟩ := (stands post member).leaf_live isLeaf
      have atLeaf := conjoins.filters post.watcher (isWatchers ▸ List.mem_map_of_mem member)
      simp only [Option.bind_some, waitsFor?, live, presides.nodeOf, atLeaf, Watcher.filter,
        Option.map_some]
      split <;> rfl

end Candidates

section Events

variable {compiled : CompiledPattern} {watchers : List Watcher} {engine : Engine} {scan : Scan}

theorem Mirrors.completed_eq
    (mirrors : Mirrors compiled watchers engine scan) :
    engine.completed = scan.completed := by
  unfold Mirrors at mirrors
  split at mirrors
  next => exact mirrors.2
  next =>
      obtain ⟨_, _, _, _, presides, _⟩ := mirrors
      exact presides.isCompleted

theorem Mirrors.isFinished_eq
    (mirrors : Mirrors compiled watchers engine scan) :
    engine.isFinished = scan.watches.isNone := by
  unfold Mirrors at mirrors
  rw [isFinished]
  cases isWatches : scan.watches with
  | none =>
      rw [isWatches] at mirrors
      rw [mirrors.1]
      rfl
  | some watches =>
      rw [isWatches] at mirrors
      obtain ⟨_, _, _, _, presides, _⟩ := mirrors
      rw [presides.root]
      rfl

/-- Matches that are handed out leave the engine where the scan is. -/
theorem Mirrors.handOut
    (mirrors : Mirrors compiled watchers engine scan)
    (atRest : engine.isAtRest = true) :
    Mirrors compiled watchers engine.handOut.1 { scan with completed := [] } := by
  unfold Mirrors at mirrors ⊢
  cases isWatches : scan.watches with
  | none =>
      rw [isWatches] at mirrors
      exact ⟨mirrors.1, rfl⟩
  | some watches =>
      rw [isWatches] at mirrors
      obtain ⟨top, posts, isPosts, isWatchers, presides, stands⟩ := mirrors
      refine ⟨top, posts, isPosts, isWatchers, ?_, fun post member => (stands post member).frame
        fun live _ => live⟩
      obtain ⟨moment, horizon, due⟩ := presides.due
      exact ⟨⟨moment, horizon, (due.handOut atRest).due atRest⟩, presides.root, presides.live,
        presides.isAgenda, rfl⟩

/-- An event moves the engine as it moves the scan, and the engine is at rest again. -/
theorem Mirrors.advance
    {schema : Schema}
    {expr : PatternExpr}
    (success : CompiledPattern.compile schema expr = .ok compiled)
    (conjoins : compiled.Conjoins watchers)
    {limit patience : Nat}
    {now : Int}
    {calls : List Call}
    (run : Run compiled limit patience now calls engine)
    (mirrors : Mirrors compiled watchers engine scan)
    (enough : 4 * watchers.length ≤ patience)
    (event : Event) :
    (engine.advance event).1.isAtRest = true ∧
      Mirrors compiled watchers (engine.advance event).1 (scan.next compiled.blank event).1 ∧
      (engine.advance event).2 = (scan.next compiled.blank event).2 := by
  have table := CompiledPattern.sound_of_compile success
  cases isWatches : scan.watches with
  | none =>
      unfold Mirrors at mirrors
      rw [isWatches] at mirrors
      obtain ⟨atRest, rootless, nothing, handsOut⟩ :=
        call_of_finished (Run.wellFormed success run) run.atRest mirrors.1 (.event event)
      have isShown : scan.shown compiled.blank event = scan := by rw [Scan.shown, isWatches]
      refine ⟨atRest, ?_, ?_⟩
      · simp only [Mirrors, Scan.next, isShown, isWatches]
        exact ⟨rootless, nothing⟩
      · rw [Scan.next, isShown]
        exact handsOut.trans mirrors.2
  | some watches =>
      have isShown : scan.shown compiled.blank event =
          (visit compiled.blank event [] watches).after compiled.blank scan.completed := by
        rw [Scan.shown, isWatches]
      unfold Mirrors at mirrors
      rw [isWatches] at mirrors
      obtain ⟨top, posts, rfl, isWatchers, presides, stands⟩ := mirrors
      have shown : Presides compiled (engine.begun (.event event)) top
          (([] ++ posts).map Post.conjunct) (posts.filterMap (Post.offer? event))
          scan.completed := by
        obtain ⟨_, _, due⟩ := presides.due
        refine ⟨⟨_, _, (due.coherent run.atRest).next.due_event run.atRest trivial⟩, presides.root,
          presides.live, ?_, presides.isCompleted⟩
        rw [← presides.offers_eq conjoins isWatchers stands event]
        simp only [begun, presides.isAgenda, List.nil_append]
      have isAll : ([] ++ posts).map Post.watcher = watchers := isWatchers
      have reaches := shown.visits table conjoins event isAll fun post member =>
        (stands post member).frame fun live _ => live
      have isLength : posts.length = watchers.length := by rw [← isWatchers, List.length_map]
      obtain ⟨atRest, settled⟩ := reaches.settle (by
        rw [patience_begun, run.terms.2.2.1, isLength]
        exact enough)
      rw [List.map_nil, ← isShown] at settled
      exact ⟨atRest, settled.handOut atRest, settled.completed_eq⟩

end Events

end Engine

end EventQuery
