import EventQuery.Proofs.Pattern.Budget
import EventQuery.Proofs.Pattern.Repeating

namespace EventQuery

/-!
# Outcomes of tasks

This module says once what performing a task can do to the states of an engine: which states are
new, which tasks come next, and when a pattern under `every` or in a repetition is left without its
operand.  What every run preserves about live states is read off these few cases.
-/

namespace Task

/-- The state that a task is about. -/
def subject? : Task → Option Ticket
  | .activate state => some state
  | .operand _ state => some state
  | .absence state => some state
  | .report receiver _ _ => receiver
  | .rearm state => some state
  | .iterate state => some state
  | .offer state _ => some state
  | .expire state => some state

/-- Whether a task brings an event or a time to a state. -/
def isStimulus : Task → Bool
  | .offer _ _ => true
  | .expire _ => true
  | _ => false

theorem subject?_of_started?
    {task : Task}
    {ticket : Ticket}
    (isStarted : task.started? = some ticket) :
    task.subject? = some ticket ∧ task.isStimulus = false := by
  cases task <;> cases isStarted <;> exact ⟨rfl, rfl⟩

end Task

/-- The task that lets a state of a node start its operand over. -/
inductive CompiledPattern.RestartedBy (compiled : CompiledPattern) (number : Nat)
    (ticket : Ticket) : Task → Prop where
  | every {child : Nat} :
      compiled.nodes[number]? = some (.every child) →
        RestartedBy compiled number ticket (.rearm ticket)
  | repetition {child least : Nat} {most : Option Nat} {innerSlots : List Nat} :
      compiled.nodes[number]? = some (.repetition child least most innerSlots) →
        RestartedBy compiled number ticket (.iterate ticket)

theorem CompiledPattern.RestartedBy.exists_repeats
    {compiled : CompiledPattern}
    {number : Nat}
    {ticket : Ticket}
    {restart : Task}
    (restarted : compiled.RestartedBy number ticket restart) :
    ∃ child, compiled.Repeats number child := by
  cases restarted with
  | every atNumber => exact ⟨_, by rw [Repeats, atNumber]; rfl⟩
  | repetition atNumber => exact ⟨_, by rw [Repeats, atNumber]; rfl⟩

theorem CompiledPattern.RestartedBy.subject?_eq
    {compiled : CompiledPattern}
    {number : Nat}
    {ticket : Ticket}
    {restart : Task}
    (restarted : compiled.RestartedBy number ticket restart) :
    restart.subject? = some ticket := by
  cases restarted <;> rfl

/-- A state is started over by one task only. -/
theorem CompiledPattern.RestartedBy.unique
    {compiled : CompiledPattern}
    {number : Nat}
    {ticket : Ticket}
    {restart other : Task}
    (first : compiled.RestartedBy number ticket restart)
    (second : compiled.RestartedBy number ticket other) :
    restart = other := by
  cases first with
  | every atFirst =>
      cases second with
      | every _ => rfl
      | repetition atSecond => cases atFirst.symm.trans atSecond
  | repetition atFirst =>
      cases second with
      | every atSecond => cases atFirst.symm.trans atSecond
      | repetition _ => rfl

theorem CompiledPattern.Repeats.exists_restart
    {compiled : CompiledPattern}
    {number child : Nat}
    (repeats : compiled.Repeats number child)
    (ticket : Ticket) :
    ∃ restart, compiled.RestartedBy number ticket restart := by
  obtain ⟨node, atNumber, isRepeated⟩ := Option.bind_eq_some_iff.mp repeats
  cases node <;> cases isRepeated
  · exact ⟨_, .every atNumber⟩
  · exact ⟨_, .repetition atNumber⟩

/-- What opens with its operator is no right operand. -/
theorem CompiledPattern.not_isRight_of_opening
    {compiled : CompiledPattern}
    (table : compiled.Sound)
    {number child : Nat}
    {node : PatternNode}
    (atNumber : compiled.nodes[number]? = some node)
    (opening : child ∈ node.opening) :
    ¬compiled.IsRight child := by
  intro isRight
  obtain ⟨left, isSequence⟩ :=
    eq_of_isRight table isRight ⟨node, atNumber, PatternNode.opening_subset opening⟩
  cases atNumber.symm.trans isSequence
  exact left_ne_right table atNumber (List.mem_singleton.mp opening).symm

/-- A state has come no further than when it was created. -/
def PatternState.IsFresh (state : PatternState) (pattern : CompiledPattern) : Prop :=
  ∃ time, state.progress =
    (pattern.nodes[state.node]?.map (Progress.initial time state.bindings)).getD .filter

namespace Engine

open CompiledPattern

section Barren

/-- One engine comes from another by work on one state, and nothing is created. -/
structure Barren (before after : Engine) (worked : Ticket) : Prop where
  steady : Steady before after worked
  issued :
    ∀ {ticket : Ticket} {state : PatternState},
      after.states.get? ticket = some state → before.states.Issued ticket

namespace Barren

variable {before engine : Engine} {worked : Ticket}

theorem refl
    (sound : engine.states.Sound)
    (worked : Ticket) :
    Barren engine engine worked :=
  ⟨.refl sound worked, fun live => .inl ⟨_, live⟩⟩

theorem withStates
    {after : Engine}
    (barren : Barren before engine worked)
    (sameStates : after.states = engine.states)
    (samePattern : after.pattern = engine.pattern) :
    Barren before after worked where
  steady := barren.steady.withStates sameStates samePattern
  issued := fun live => barren.issued (sameStates ▸ live)

theorem update
    (barren : Barren before engine worked)
    (change : Progress → Progress) :
    Barren before (engine.update worked change) worked where
  steady := barren.steady.update change
  issued := by
    intro ticket state live
    obtain ⟨earlier, wasLive, _⟩ := get?_update_cases live
    exact barren.issued wasLive

theorem release
    (barren : Barren before engine worked)
    (tickets : List Ticket) :
    Barren before (engine.release tickets) worked where
  steady := barren.steady.release tickets
  issued := fun live => barren.issued (get?_of_release live)

/-- What is found afterwards was found before, and is as it was unless it is what was worked on. -/
theorem found
    (barren : Barren before engine worked)
    {ticket : Ticket}
    {state : PatternState}
    (live : engine.states.get? ticket = some state) :
    ∃ earlier, before.states.get? ticket = some earlier ∧ state.node = earlier.node ∧
      state.parent = earlier.parent := by
  obtain ⟨earlier, wasLive, sameNode, sameParent, _⟩ :=
    barren.steady.evolves.same (barren.issued live) live
  exact ⟨earlier, wasLive, sameNode, sameParent⟩

end Barren

end Barren

/-- The operands of a state start: what is new afterwards is one state for each of them. -/
structure Opens
    (compiled : CompiledPattern)
    (before after : Engine)
    (ticket : Ticket)
    (owner : PatternState)
    (births : List Ticket) : Prop where
  steady : Steady before after ticket
  live : before.states.get? ticket = some owner
  childless : owner.progress.children = []
  nonempty : births ≠ []
  nodup : births.Nodup
  born :
    ∀ birth ∈ births, ¬before.states.Issued birth ∧
      ∃ state, after.states.get? birth = some state ∧ state.parent = some ticket ∧
        compiled.IsOperand owner.node state.node ∧ ¬compiled.IsRight state.node ∧
          state.IsFresh before.pattern
  apart :
    ∀ {first second : Ticket} {state other : PatternState},
      first ∈ births → second ∈ births → after.states.get? first = some state →
        after.states.get? second = some other → state.node = other.node → first = second
  known :
    ∀ {found : Ticket} {state : PatternState},
      after.states.get? found = some state → before.states.Issued found ∨ found ∈ births

/-- What performing a task can do to the states of an engine, and which tasks come next. -/
inductive Outcome (compiled : CompiledPattern) (before : Engine) :
    Task → Engine × List Task → Prop where
  /-- A match or the failure of the whole pattern is noted. -/
  | concluded {sender : Ticket} {signal : Signal} {after : Engine} :
      after.states = before.states → Outcome compiled before (.report none sender signal) (after, [])
  /-- A state that a task is about rests, is gone, or reports.  Nothing starts. -/
  | rested {task : Task} {ticket : Ticket} {after : Engine} {tasks : List Task} :
      task.subject? = some ticket →
        Barren before after ticket → tasks.Nodup →
          (∀ next ∈ tasks, ∃ state signal, before.states.get? ticket = some state ∧
            next = .report state.parent ticket signal ∧
              (compiled.IsLeaf state.node → task.isStimulus = true)) →
            (∀ {state : PatternState} {restart : Task}, after.states.get? ticket = some state →
              compiled.RestartedBy state.node ticket restart → state.progress.children = [] →
                before.states.get? ticket = some state ∧ restart ≠ task ∧ task.started? = none) →
              Outcome compiled before task (after, tasks)
  /-- A state hears of an operand.  It may report in turn, and ask for its operand to start over. -/
  | heard {receiver sender : Ticket} {signal : Signal} {owner : PatternState} {after : Engine}
      {tasks : List Task} :
      before.states.get? receiver = some owner → sender ∈ owner.progress.children →
        Barren before after receiver → tasks.Nodup →
          (∀ next ∈ tasks, (∃ reported, next = .report owner.parent receiver reported) ∨
            compiled.RestartedBy owner.node receiver next) →
            (∀ {state : PatternState} {restart : Task}, after.states.get? receiver = some state →
              compiled.RestartedBy state.node receiver restart →
                state.progress.children = [] → restart ∈ tasks) →
              Outcome compiled before (.report (some receiver) sender signal) (after, tasks)
  /-- A sequence hears of its left operand and starts a right one: few enough leaves are live. -/
  | continued {receiver sender birth : Ticket} {signal : Signal} {owner state : PatternState}
      {left right : Nat} {rights : List Ticket} {after : Engine} :
      before.states.get? receiver = some owner →
        compiled.nodes[owner.node]? = some (.sequence left right) →
          owner.progress = .sequence (some sender) rights → before.leaves < before.limit →
            Steady before after receiver → ¬before.states.Issued birth →
              after.states.get? birth = some state → state.node = right →
                state.parent = some receiver → state.IsFresh before.pattern →
                  (∀ {found : Ticket} {other : PatternState},
                    after.states.get? found = some other →
                      before.states.Issued found ∨ found = birth) →
                    Outcome compiled before (.report (some receiver) sender signal)
                      (after, [.activate birth])
  /-- The operands of a state start, or its only operand starts over. -/
  | opened {task : Task} {ticket : Ticket} {owner : PatternState} {births : List Ticket}
      {begin : Ticket → Task} {others : List Task} {after : Engine} :
      task.subject? = some ticket → task.isStimulus = false →
        task.started? = some ticket ∨ (∃ child, compiled.Repeats owner.node child) →
          Opens compiled before after ticket owner births →
            (∀ birth, (begin birth).started? = some birth) →
              (∀ next ∈ others, next = .absence ticket) →
                Outcome compiled before task (after, births.map begin ++ others)

section Opening

variable {compiled : CompiledPattern} {before engine : Engine} {owner : Ticket}
  {state : PatternState}

theorem isFresh_newState
    (engine : Engine)
    (number : Nat)
    (parent : Option Ticket)
    (bindings : Row) :
    (engine.newState number parent bindings).IsFresh engine.pattern :=
  ⟨engine.now, rfl⟩

theorem get?_createAll_cases
    (sound : engine.states.Sound)
    (parent : Ticket)
    (bindings : Row)
    (numbers : List Nat)
    {ticket : Ticket}
    {found : PatternState}
    (live : (engine.createAll parent bindings numbers).1.states.get? ticket = some found) :
    ticket ∈ (engine.createAll parent bindings numbers).2 ∨
      engine.states.get? ticket = some found := by
  induction numbers generalizing engine with
  | nil => exact .inr live
  | cons number rest inductionHypothesis =>
      rcases inductionHypothesis (sound.insert _) live with isNew | early
      · exact .inl (List.mem_cons_of_mem _ isNew)
      · rcases get?_create_cases sound early with ⟨isFirst, _⟩ | ⟨_, old⟩
        · exact .inl (isFirst ▸ List.mem_cons_self)
        · exact .inr old

/-- The created states are new and have the parent. -/
theorem live_createAll
    (sound : engine.states.Sound)
    (parent : Ticket)
    (bindings : Row)
    (numbers : List Nat)
    {ticket : Ticket}
    (member : ticket ∈ (engine.createAll parent bindings numbers).2) :
    ¬engine.states.Issued ticket ∧
      ∃ found, (engine.createAll parent bindings numbers).1.states.get? ticket = some found ∧
        found.parent = some parent ∧ found.IsFresh engine.pattern := by
  induction numbers generalizing engine with
  | nil => cases member
  | cons number rest inductionHypothesis =>
      have soundNow : (engine.create number (some parent) bindings).1.states.Sound :=
        sound.insert _
      rcases List.mem_cons.mp member with isFirst | inRest
      · subst isFirst
        exact ⟨not_issued_create sound number (some parent) bindings, _,
          get?_createAll_of_live soundNow parent bindings rest
            (get?_create_self sound number (some parent) bindings), rfl,
          isFresh_newState _ _ _ _⟩
      · obtain ⟨notIssued, found⟩ := inductionHypothesis soundNow inRest
        have evolves := evolves_create sound number (some parent) bindings
        exact ⟨fun issued => notIssued (evolves.issued issued), found⟩

/-- There is one created state for each number, in order. -/
theorem nodes_createAll
    (sound : engine.states.Sound)
    (parent : Ticket)
    (bindings : Row)
    (numbers : List Nat) :
    (engine.createAll parent bindings numbers).2.map
        (fun ticket => ((engine.createAll parent bindings numbers).1.states.get? ticket).map
          PatternState.node) =
      numbers.map some := by
  induction numbers generalizing engine with
  | nil => rfl
  | cons number rest inductionHypothesis =>
      have soundNow : (engine.create number (some parent) bindings).1.states.Sound :=
        sound.insert _
      have first := get?_createAll_of_live soundNow parent bindings rest
        (get?_create_self sound number (some parent) bindings)
      rw [List.map_cons, ← inductionHypothesis soundNow]
      exact List.cons_eq_cons.mpr ⟨congrArg (Option.map PatternState.node) first, rfl⟩

theorem Steady.createAll
    {worked : Ticket}
    (steady : Steady before engine worked)
    (parent : Ticket)
    (bindings : Row)
    (numbers : List Nat) :
    Steady before (engine.createAll parent bindings numbers).1 worked := by
  induction numbers generalizing engine with
  | nil => exact steady
  | cons number rest inductionHypothesis =>
      exact inductionHypothesis (steady.create number (some parent) bindings)

/-- States for different operands of a node are created and listed by their owner. -/
theorem opens_createAll
    (barren : Barren before engine owner)
    (live : before.states.get? owner = some state)
    (childless : state.progress.children = [])
    (bindings : Row)
    {numbers : List Nat}
    (nonempty : numbers ≠ [])
    (distinct : numbers.Nodup)
    (operands :
      ∀ number ∈ numbers, compiled.IsOperand state.node number ∧ ¬compiled.IsRight number)
    (change : Progress → Progress) :
    Opens compiled before ((engine.createAll owner bindings numbers).1.update owner change) owner
      state (engine.createAll owner bindings numbers).2 := by
  have sound := barren.steady.sound
  have issuedOwner : engine.states.Issued owner :=
    barren.steady.evolves.issued (.inl ⟨state, live⟩)
  -- Listing the operands changes only the owner, which is none of the created states.
  have unchanged : ∀ {ticket : Ticket},
      ticket ∈ (engine.createAll owner bindings numbers).2 →
        ((engine.createAll owner bindings numbers).1.update owner change).states.get? ticket =
          (engine.createAll owner bindings numbers).1.states.get? ticket := by
    intro ticket member
    rw [get?_update, if_neg]
    rintro rfl
    exact (live_createAll sound ticket bindings numbers member).1 issuedOwner
  have nodes := nodes_createAll sound owner bindings numbers
  have distinctNodes : (numbers.map some).Nodup := distinct.map fun _ _ => Option.some.inj
  rw [← nodes] at distinctNodes
  constructor
  case nodup => exact distinctNodes.of_map
  case steady => exact (barren.steady.createAll owner bindings numbers).update change
  case live => exact live
  case childless => exact childless
  case nonempty =>
      intro isEmpty
      rw [isEmpty] at nodes
      exact nonempty (List.map_eq_nil_iff.mp nodes.symm)
  case born =>
      intro birth member
      obtain ⟨notIssued, found, isFound, hasParent, isFresh⟩ :=
        live_createAll sound owner bindings numbers member
      have isNumber : some found.node ∈ numbers.map some := by
        rw [← nodes]
        exact List.mem_map.mpr ⟨birth, member, by rw [isFound]; rfl⟩
      obtain ⟨number, inNumbers, isNode⟩ := List.mem_map.mp isNumber
      have sameNode := Option.some.inj isNode
      obtain ⟨isOperand, notRight⟩ := operands number inNumbers
      refine ⟨fun issued => notIssued (barren.steady.evolves.issued issued), found, ?_, hasParent,
        sameNode ▸ isOperand, sameNode ▸ notRight, barren.steady.pattern ▸ isFresh⟩
      rw [unchanged member, isFound]
  case apart =>
      intro first second found other isFirst isSecond liveFirst liveSecond sameNode
      rw [unchanged isFirst] at liveFirst
      rw [unchanged isSecond] at liveSecond
      refine List.inj_on_of_nodup_map distinctNodes isFirst isSecond ?_
      simp only [liveFirst, liveSecond, Option.map_some, sameNode]
  case known =>
      intro found other isLive
      obtain ⟨earlier, wasLive, _⟩ := get?_update_cases isLive
      rcases get?_createAll_cases sound owner bindings numbers wasLive with isNew | old
      · exact .inr isNew
      · exact .inl (barren.issued old)

/-- The only operand of a state starts, or the left one of a sequence. -/
theorem outcome_startChild
    {task : Task}
    (isSubject : task.subject? = some owner ∧ task.isStimulus = false)
    (reason : task.started? = some owner ∨ ∃ child, compiled.Repeats state.node child)
    (barren : Barren before engine owner)
    (live : before.states.get? owner = some state)
    (childless : state.progress.children = [])
    (bindings : Row)
    {child : Nat}
    (isOperand : compiled.IsOperand state.node child)
    (notRight : ¬compiled.IsRight child)
    {others : List Task}
    (only : ∀ next ∈ others, next = .absence owner) :
    Outcome compiled before task
      ((engine.startChild owner child bindings).1,
        (engine.startChild owner child bindings).2 ++ others) := by
  have operands : ∀ number ∈ [child],
      compiled.IsOperand state.node number ∧ ¬compiled.IsRight number :=
    fun number member => List.mem_singleton.mp member ▸ ⟨isOperand, notRight⟩
  have opens := opens_createAll barren live childless bindings (List.cons_ne_nil child [])
    (List.nodup_singleton child) operands
    (Progress.withChild (engine.create child (some owner) bindings).2)
  exact .opened isSubject.1 isSubject.2 reason opens (fun _ => rfl) only

/-- All operands of a state start. -/
theorem outcome_startOperands
    (table : compiled.Sound)
    {task : Task}
    (starts : task.started? = some owner)
    (barren : Barren before engine owner)
    (live : before.states.get? owner = some state)
    (childless : state.progress.children = [])
    (bindings : Row)
    {node : PatternNode}
    (atNode : compiled.nodes[state.node]? = some node)
    (opening : node.opening = node.children)
    (nonempty : node.children ≠ []) :
    Outcome compiled before task (engine.startOperands owner node.children bindings) := by
  have opens := opens_createAll barren live childless bindings nonempty
    (table.operandsNodup atNode)
    (fun number member => ⟨⟨node, atNode, member⟩,
      not_isRight_of_opening table atNode (opening ▸ member)⟩)
    (Progress.withOperands (engine.createAll owner bindings node.children).2)
  obtain ⟨isSubject, noStimulus⟩ := Task.subject?_of_started? starts
  have outcome := Outcome.opened isSubject noStimulus (.inl starts) opens
    (fun birth => (rfl : (Task.operand owner birth).started? = some birth))
    (fun next member => absurd member List.not_mem_nil)
  rwa [List.append_nil] at outcome

end Opening

section Activate

variable {compiled : CompiledPattern} {law : RowLaw compiled} {moment horizon : Nat}
  {engine : Engine} {starting : List Ticket} {ticket : Ticket}

/-- A node that is not `every` or a repetition never starts its operand over. -/
theorem not_restartedBy
    {number : Nat}
    {node : PatternNode}
    (atNode : compiled.nodes[number]? = some node)
    (once : node.repeated = none)
    {restart : Task} :
    ¬compiled.RestartedBy number ticket restart := by
  intro restarted
  cases restarted with
  | every atNumber =>
      cases atNode.symm.trans atNumber
      cases once
  | repetition atNumber =>
      cases atNode.symm.trans atNumber
      cases once

/-- A state that is gone has nothing to do. -/
theorem outcome_gone
    (sound : engine.states.Sound)
    {task : Task}
    (isSubject : task.subject? = some ticket)
    (gone : engine.states.get? ticket = none) :
    Outcome compiled engine task (engine, []) := by
  refine .rested isSubject (.refl sound ticket) .nil (fun _ member => by cases member) ?_
  intro state restart live
  rw [gone] at live
  cases live

/-- A leaf waits from now on. -/
private theorem outcome_waiting
    {after : Engine}
    (sound : engine.states.Sound)
    {task : Task}
    (isSubject : task.subject? = some ticket)
    (sameStates : after.states = engine.states)
    (samePattern : after.pattern = engine.pattern)
    {state : PatternState}
    (live : engine.states.get? ticket = some state)
    {node : PatternNode}
    (atNode : compiled.nodes[state.node]? = some node)
    (once : node.repeated = none) :
    Outcome compiled engine task (after, []) := by
  refine .rested isSubject ((Barren.refl sound ticket).withStates sameStates samePattern) .nil
    (fun _ member => by cases member) ?_
  intro found restart stillLive restarted
  rw [sameStates, live] at stillLive
  cases stillLive
  exact absurd restarted (not_restartedBy atNode once)

/-- A state that starts to run waits, or starts its operands. -/
theorem outcome_activate
    (table : compiled.Sound)
    (coherent : engine.Coherent law moment horizon (ticket :: starting) none [])
    {task : Task}
    (starts : task.started? = some ticket) :
    Outcome compiled engine task (engine.activate ticket) := by
  have sound := coherent.kept.sound
  have isSubject := Task.subject?_of_started? starts
  have barren := Barren.refl sound ticket
  cases live : engine.states.get? ticket with
  | none =>
      simp only [activate, live]
      exact outcome_gone sound isSubject.1 live
  | some state =>
      have childless := coherent.fresh.childless ticket (by simp) live
      obtain ⟨node, atNode, fits⟩ := coherent.kept.fits live
      have atEngine : engine.nodeOf state = some node := by
        rw [nodeOf, coherent.kept.pattern, atNode]
      have opens : ∀ {child : Nat} {waiting : Engine} {others : List Task},
          child ∈ node.opening → Barren engine waiting ticket →
            (∀ next ∈ others, next = .absence ticket) →
              Outcome compiled engine task
                ((waiting.startChild ticket child state.bindings).1,
                  (waiting.startChild ticket child state.bindings).2 ++ others) := by
        intro child waiting others opening barren only
        exact outcome_startChild isSubject (.inl starts) barren live childless state.bindings
          ⟨node, atNode, PatternNode.opening_subset opening⟩
          (not_isRight_of_opening table atNode opening) only
      rcases state with ⟨number, parent, created, bindings, progress⟩
      simp only at fits childless atNode opens
      cases fits with
      | filter =>
          simp only [activate, live, atEngine]
          exact outcome_waiting sound isSubject.1 rfl rfl live atNode rfl
      | timer =>
          simp only [activate, live, atEngine]
          exact outcome_waiting sound isSubject.1 rfl rfl live atNode rfl
      | alternation =>
          simp only [activate, live, atEngine]
          refine outcome_startOperands table starts barren live childless bindings atNode rfl ?_
          rintro rfl
          exact table.alternationNonempty atNode
      | conjunction =>
          simp only [activate, live, atEngine]
          refine outcome_startOperands table starts barren live childless bindings atNode rfl ?_
          rintro rfl
          exact table.conjunctionNonempty atNode
      | repetition rounds =>
          have repeats : compiled.Repeats number _ :=
            Option.bind_eq_some_iff.mpr ⟨_, atNode, rfl⟩
          simp only [activate, live, atEngine]
          exact outcome_startChild isSubject (.inl starts) barren live childless _
            repeats.isOperand (repeats.not_isRight table)
            (fun _ member => absurd member List.not_mem_nil)
      | negation =>
          simp only [activate, live, atEngine]
          exact opens (.head _) barren (fun _ member => List.mem_singleton.mp member)
      | within held =>
          simp only [activate, live, atEngine]
          exact opens (.head _) (barren.withStates rfl rfl)
            (fun _ member => absurd member List.not_mem_nil)
      | _ =>
          simp only [activate, live, atEngine]
          exact opens (.head _) barren (fun _ member => absurd member List.not_mem_nil)

/-- A state under which nothing runs and that starts its operand over is about to do so. -/
private theorem progress_of_childless
    {moment horizon : Nat}
    (kept : engine.Kept law moment horizon)
    {state : PatternState}
    (live : engine.states.get? ticket = some state)
    {restart : Task}
    (restarted : compiled.RestartedBy state.node ticket restart)
    (childless : state.progress.children = []) :
    (restart = .rearm ticket →
        ∃ child, engine.nodeOf state = some (.every child) ∧ state.progress = .every none) ∧
      (restart = .iterate ticket →
        ∃ child least most innerSlots rounds collected,
          engine.nodeOf state = some (.repetition child least most innerSlots) ∧
            state.progress = .repetition none rounds collected) := by
  obtain ⟨node, atNode, fits⟩ := kept.fits live
  have atEngine : engine.nodeOf state = some node := by
    rw [nodeOf, kept.pattern, atNode]
  rw [atEngine]
  generalize state.progress = progress at fits childless
  cases restarted with
  | every atNumber =>
      cases atNode.symm.trans atNumber
      cases fits with
      | @every _ running =>
          cases running with
          | none => exact ⟨fun _ => ⟨_, rfl, rfl⟩, fun other => by cases other⟩
          | some child => cases childless
  | repetition atNumber =>
      cases atNode.symm.trans atNumber
      cases fits with
      | @repetition _ _ _ _ _ running _ rounds =>
          cases running with
          | none =>
              exact ⟨(fun other => by cases other), fun _ => ⟨_, _, _, _, _, _, rfl, rfl⟩⟩
          | some child => cases childless

/-- The pattern under `every` starts over when its operand is gone. -/
theorem outcome_rearm
    (table : compiled.Sound)
    (coherent : engine.Coherent law moment horizon starting none []) :
    Outcome compiled engine (.rearm ticket) (engine.rearm ticket) := by
  have sound := coherent.kept.sound
  have barren := Barren.refl sound ticket
  cases live : engine.states.get? ticket with
  | none =>
      simp only [rearm, live]
      exact outcome_gone sound rfl live
  | some state =>
      simp only [rearm, live]
      split
      next child atEngine isChildless =>
          rw [nodeOf, coherent.kept.pattern] at atEngine
          have repeats : compiled.Repeats state.node child :=
            Option.bind_eq_some_iff.mpr ⟨_, atEngine, rfl⟩
          exact outcome_startChild ⟨rfl, rfl⟩ (.inr ⟨child, repeats⟩) barren live
            (by rw [isChildless]; rfl) _ repeats.isOperand (repeats.not_isRight table)
            (fun _ member => absurd member List.not_mem_nil)
      next other =>
          refine .rested rfl barren .nil (fun _ member => by cases member) ?_
          intro found restart stillLive restarted childless
          cases live.symm.trans stillLive
          refine ⟨live, fun same => ?_, rfl⟩
          obtain ⟨child, atEngine, isChildless⟩ :=
            (progress_of_childless coherent.kept live restarted childless).1 same
          exact other child atEngine isChildless

/-- The next round of a repetition starts when its operand is gone. -/
theorem outcome_iterate
    (table : compiled.Sound)
    (coherent : engine.Coherent law moment horizon starting none []) :
    Outcome compiled engine (.iterate ticket) (engine.iterate ticket) := by
  have sound := coherent.kept.sound
  have barren := Barren.refl sound ticket
  cases live : engine.states.get? ticket with
  | none =>
      simp only [iterate, live]
      exact outcome_gone sound rfl live
  | some state =>
      simp only [iterate, live]
      split
      next child least most innerSlots rounds collected atEngine isChildless =>
          rw [nodeOf, coherent.kept.pattern] at atEngine
          have repeats : compiled.Repeats state.node child :=
            Option.bind_eq_some_iff.mpr ⟨_, atEngine, rfl⟩
          exact outcome_startChild ⟨rfl, rfl⟩ (.inr ⟨child, repeats⟩) barren live
            (by rw [isChildless]; rfl) _ repeats.isOperand (repeats.not_isRight table)
            (fun _ member => absurd member List.not_mem_nil)
      next other =>
          refine .rested rfl barren .nil (fun _ member => by cases member) ?_
          intro found restart stillLive restarted childless
          cases live.symm.trans stillLive
          refine ⟨live, fun same => ?_, rfl⟩
          obtain ⟨_, _, _, _, _, _, atEngine, isChildless⟩ :=
            (progress_of_childless coherent.kept live restarted childless).2 same
          exact other _ _ _ _ _ _ atEngine isChildless

end Activate

section Passive

variable {compiled : CompiledPattern} {before engine : Engine} {ticket : Ticket}
  {state : PatternState}

/-- What a state worked on does when it starts nothing: it rests or reports to its parent. -/
structure Passive
    (before : Engine)
    (ticket : Ticket)
    (state : PatternState)
    (answer : Engine × List Task) : Prop where
  barren : Barren before answer.1 ticket
  nodup : answer.2.Nodup
  reports : ∀ next ∈ answer.2, ∃ signal, next = .report state.parent ticket signal

theorem Barren.nothing
    (barren : Barren before engine ticket)
    (state : PatternState) :
    Passive before ticket state (engine, []) :=
  ⟨barren, .nil, fun _ member => by cases member⟩

theorem Barren.reportMatch
    (barren : Barren before engine ticket)
    (state : PatternState)
    (bindings : Row) :
    Passive before ticket state (engine, [reportMatch state ticket bindings]) :=
  ⟨barren, List.nodup_singleton _, fun _ member => ⟨_, List.mem_singleton.mp member⟩⟩

theorem Barren.finish
    (barren : Barren before engine ticket)
    (live : before.states.get? ticket = some state)
    (signal : Signal) :
    Passive before ticket state (engine.finish ticket signal) := by
  unfold Engine.finish
  split
  next => exact barren.nothing state
  next found stillLive =>
      obtain ⟨earlier, wasLive, _, sameParent⟩ := barren.found stillLive
      cases live.symm.trans wasLive
      exact ⟨barren.release [ticket], List.nodup_singleton _,
        fun _ member => ⟨signal, sameParent ▸ List.mem_singleton.mp member⟩⟩

theorem Barren.failIfExhausted
    (barren : Barren before engine ticket)
    (live : before.states.get? ticket = some state)
    (restartable : Bool) :
    Passive before ticket state (engine.failIfExhausted ticket restartable) := by
  unfold Engine.failIfExhausted
  split
  next => exact barren.finish live _
  next => exact barren.nothing state

/-- A state that finishes is gone. -/
theorem get?_finish
    (engine : Engine)
    (ticket : Ticket)
    (signal : Signal) :
    (engine.finish ticket signal).1.states.get? ticket = none := by
  unfold Engine.finish
  split
  next gone => exact gone
  next found live =>
      obtain ⟨rest, took⟩ := Pool.exists_take live
      rw [Option.eq_none_iff_forall_not_mem]
      intro other stillLive
      have stillLive : (engine.release [ticket]).states.get? ticket = some other := stillLive
      rw [release_of_take took] at stillLive
      exact ((get?_drop_iff took).mp (get?_of_release stillLive)).1 rfl

end Passive

section Receive

variable {compiled : CompiledPattern} {law : RowLaw compiled} {moment horizon : Nat}
  {engine : Engine} {starting : List Ticket} {gap : Option (Ticket × PatternState)}
  {ticket sender : Ticket} {state : PatternState} {signal : Signal} {node : PatternNode}

/-- What a state that starts nothing over answers to an operand. -/
private theorem Passive.outcome
    {answer : Engine × List Task}
    (passive : Passive engine ticket state answer)
    (live : engine.states.get? ticket = some state)
    (listed : sender ∈ state.progress.children)
    (atNode : compiled.nodes[state.node]? = some node)
    (once : node.repeated = none) :
    Outcome compiled engine (.report (some ticket) sender signal) answer := by
  refine .heard live listed passive.barren passive.nodup
    (fun next member => .inl (passive.reports next member)) ?_
  intro found restart stillLive restarted
  obtain ⟨earlier, wasLive, sameNode, _⟩ := passive.barren.found stillLive
  cases live.symm.trans wasLive
  exact absurd (sameNode ▸ restarted) (not_restartedBy atNode once)

/-- A state that starts its operand over still has it, or is gone. -/
private theorem Passive.outcome_of_busy
    {answer : Engine × List Task}
    (passive : Passive engine ticket state answer)
    (live : engine.states.get? ticket = some state)
    (listed : sender ∈ state.progress.children)
    (busy :
      ∀ {found : PatternState}, answer.1.states.get? ticket = some found →
        found.progress.children ≠ []) :
    Outcome compiled engine (.report (some ticket) sender signal) answer :=
  .heard live listed passive.barren passive.nodup
    (fun next member => .inl (passive.reports next member))
    fun stillLive _ childless => absurd childless (busy stillLive)

/-- A state that starts its operand over ends. -/
private theorem Barren.outcome_finish
    {changed : Engine}
    (barren : Barren engine changed ticket)
    (live : engine.states.get? ticket = some state)
    (listed : sender ∈ state.progress.children)
    (reported : Signal) :
    Outcome compiled engine (.report (some ticket) sender signal)
      (changed.finish ticket reported) := by
  refine (barren.finish live reported).outcome_of_busy live listed fun stillLive => ?_
  rw [get?_finish] at stillLive
  cases stillLive

/-- A state asks for its operand to start over. -/
private theorem Barren.outcome_restart
    {changed : Engine}
    {restart : Task}
    {tasks : List Task}
    (barren : Barren engine changed ticket)
    (live : engine.states.get? ticket = some state)
    (listed : sender ∈ state.progress.children)
    (restarted : compiled.RestartedBy state.node ticket restart)
    (nodup : tasks.Nodup)
    (replies :
      ∀ next ∈ tasks, (∃ reported, next = .report state.parent ticket reported) ∨ next = restart)
    (asked : restart ∈ tasks) :
    Outcome compiled engine (.report (some ticket) sender signal) (changed, tasks) := by
  refine .heard live listed barren nodup (fun next member => ?_) ?_
  · rcases replies next member with reports | rfl
    · exact .inl reports
    · exact .inr restarted
  · intro found other stillLive otherRestarted _
    obtain ⟨earlier, wasLive, sameNode, _⟩ := barren.found stillLive
    cases live.symm.trans wasLive
    rw [sameNode] at otherRestarted
    exact restarted.unique otherRestarted ▸ asked

private theorem passive_receiveRight
    (barren : Barren engine engine ticket)
    (live : engine.states.get? ticket = some state) :
    Passive engine ticket state (engine.receiveRight ticket state sender signal) := by
  cases signal with
  | matched bindings isLast =>
      simp only [receiveRight]
      split
      next => exact (barren.update _).finish live _
      next => exact (barren.update _).reportMatch state bindings
  | failed restartable => exact (barren.update _).failIfExhausted live restartable

private theorem passive_receiveAlternation
    (barren : Barren engine engine ticket)
    (live : engine.states.get? ticket = some state)
    (children : List Ticket) :
    Passive engine ticket state (engine.receiveAlternation ticket state children sender signal) := by
  cases signal with
  | matched bindings isLast =>
      cases isLast with
      | true => exact barren.finish live _
      | false => exact barren.reportMatch state bindings
  | failed restartable =>
      simp only [receiveAlternation]
      split
      next => exact (barren.update _).finish live _
      next => exact (barren.update _).nothing state

private theorem passive_receiveConjunction
    (barren : Barren engine engine ticket)
    (live : engine.states.get? ticket = some state)
    (operands : List Conjunct) :
    Passive engine ticket state (engine.receiveConjunction ticket state operands sender signal) := by
  cases signal with
  | matched bindings isLast =>
      simp only [receiveConjunction]
      split
      next => exact (barren.update _).finish live _
      next => exact (barren.update _).nothing state
  | failed restartable => exact barren.finish live _

private theorem passive_receiveNegation
    (barren : Barren engine engine ticket)
    (live : engine.states.get? ticket = some state) :
    Passive engine ticket state (engine.receiveNegation ticket signal) := by
  cases signal with
  | matched bindings isLast => exact barren.finish live _
  | failed restartable => exact (barren.update _).nothing state

private theorem passive_receiveWithin
    (barren : Barren engine engine ticket)
    (live : engine.states.get? ticket = some state)
    (absence : Bool)
    (child : Option Ticket)
    (deadline : Int) :
    Passive engine ticket state
      (engine.receiveWithin ticket state absence child deadline signal) := by
  cases signal with
  | matched bindings isLast =>
      simp only [receiveWithin]
      split
      next => exact (barren.update _).nothing state
      next =>
          split
          next => exact barren.finish live _
          next => exact barren.reportMatch state bindings
  | failed restartable => exact barren.finish live _

private theorem passive_receiveGuarded
    (barren : Barren engine engine ticket)
    (live : engine.states.get? ticket = some state)
    (guard : Node) :
    Passive engine ticket state (engine.receiveGuarded ticket state guard signal) := by
  cases signal with
  | matched bindings isLast =>
      obtain ⟨faults, tested⟩ := test_frame engine guard bindings
      have unchanged : Barren engine (engine.test guard bindings).1 ticket := by
        rw [tested]
        exact barren.withStates rfl rfl
      simp only [receiveGuarded]
      split
      next => exact unchanged.finish live _
      next =>
          split
          next => exact unchanged.finish live _
          next => exact unchanged.reportMatch state bindings
  | failed restartable => exact barren.finish live _

/-- A pattern under `every` that loses its operand starts over, or ends. -/
private theorem outcome_receiveEvery
    {child : Nat}
    (barren : Barren engine engine ticket)
    (live : engine.states.get? ticket = some state)
    (atNode : compiled.nodes[state.node]? = some (.every child))
    (shape : state.progress = .every (some sender)) :
    Outcome compiled engine (.report (some ticket) sender signal)
      (engine.receiveEvery ticket state signal) := by
  have listed : sender ∈ state.progress.children := by
    rw [shape]
    exact List.mem_singleton_self sender
  have dropped := barren.update Progress.withoutChild
  cases signal with
  | matched bindings isLast =>
      cases isLast with
      | true =>
          refine dropped.outcome_restart live listed (.every atNode) (by simp [reportMatch]) ?_
            (by simp)
          intro next member
          simp only [↓reduceIte, List.mem_cons, List.not_mem_nil, or_false] at member
          exact member.imp_left fun same => ⟨_, same⟩
      | false =>
          refine (barren.reportMatch state bindings).outcome_of_busy live listed fun stillLive => ?_
          cases live.symm.trans stillLive
          exact List.ne_nil_of_mem listed
  | failed restartable =>
      cases restartable with
      | true =>
          exact dropped.outcome_restart live listed (.every atNode) (List.nodup_singleton _)
            (fun next member => .inr (List.mem_singleton.mp member)) (List.mem_singleton_self _)
      | false => exact dropped.outcome_finish live listed _

/-- A repetition goes on to the next round, or ends. -/
private theorem outcome_receiveRepetition
    {child least rounds : Nat}
    {most : Option Nat}
    {innerSlots : List Nat}
    {collected : Row}
    (barren : Barren engine engine ticket)
    (live : engine.states.get? ticket = some state)
    (atNode : compiled.nodes[state.node]? = some (.repetition child least most innerSlots))
    (shape : state.progress = .repetition (some sender) rounds collected) :
    Outcome compiled engine (.report (some ticket) sender signal)
      (engine.receiveRepetition ticket state least most innerSlots (some sender) rounds collected
        signal) := by
  have listed : sender ∈ state.progress.children := by
    rw [shape]
    exact List.mem_singleton_self sender
  cases signal with
  | matched bindings isLast =>
      simp only [receiveRepetition]
      split
      next => exact (barren.update _).outcome_finish live listed _
      next =>
          split
          next =>
              refine (barren.update _).outcome_restart live listed (.repetition atNode)
                (by simp [reportMatch]) ?_ (by simp)
              intro next member
              simp only [List.mem_cons, List.not_mem_nil, or_false] at member
              exact member.imp_left fun same => ⟨_, same⟩
          next =>
              exact (barren.update _).outcome_restart live listed (.repetition atNode)
                (List.nodup_singleton _) (fun next member => .inr (List.mem_singleton.mp member))
                (List.mem_singleton_self _)
  | failed restartable => exact barren.outcome_finish live listed _

/-- A sequence goes on to its right side after a match, as long as few enough leaves are live. -/
private theorem outcome_receiveLeft
    {left right : Nat}
    {rights : List Ticket}
    (barren : Barren engine engine ticket)
    (live : engine.states.get? ticket = some state)
    (atNode : compiled.nodes[state.node]? = some (.sequence left right))
    (shape : state.progress = .sequence (some sender) rights) :
    Outcome compiled engine (.report (some ticket) sender signal)
      (engine.receiveLeft ticket right signal) := by
  have listed : sender ∈ state.progress.children := by
    rw [shape]
    exact List.mem_cons_self
  cases signal with
  | matched bindings isLast =>
      have dropped : Barren engine (engine.dropChildIf ticket isLast) ticket := by
        cases isLast with
        | true => exact barren.update _
        | false => exact barren
      have sameCounts : (engine.dropChildIf ticket isLast).limit = engine.limit ∧
          (engine.dropChildIf ticket isLast).leaves = engine.leaves := by
        cases isLast <;> exact ⟨rfl, rfl⟩
      simp only [receiveLeft, sameCounts]
      split
      next => exact (dropped.failIfExhausted live _).outcome live listed atNode rfl
      next few =>
          have sound := dropped.steady.sound
          have notIssued : ¬engine.states.Issued
              ((engine.dropChildIf ticket isLast).create right (some ticket) bindings).2 :=
            fun issued => not_issued_create sound _ _ _ (dropped.steady.evolves.issued issued)
          have isNew :
              ((engine.dropChildIf ticket isLast).create right (some ticket) bindings).2 ≠
                ticket := by
            intro same
            rw [same] at notIssued
            exact notIssued (.inl ⟨state, live⟩)
          refine .continued live atNode shape (Nat.not_le.mp few)
            ((dropped.steady.create right (some ticket) bindings).update _) notIssued
            (by rw [get?_update, if_neg isNew, get?_create_self sound]) rfl rfl
            (dropped.steady.pattern ▸ isFresh_newState _ _ _ _) ?_
          intro found other isLive
          obtain ⟨earlier, wasLive, _⟩ := get?_update_cases isLive
          rcases get?_create_cases sound wasLive with ⟨isBirth, _⟩ | ⟨_, old⟩
          · exact .inr isBirth
          · exact .inl (dropped.issued old)
  | failed restartable =>
      exact ((barren.update _).failIfExhausted live restartable).outcome live listed atNode rfl

/-- What a state can answer to the report of an operand. -/
theorem outcome_receive
    {receiver : Ticket}
    (coherent : engine.Coherent law moment horizon starting gap [])
    (reports : Reports law moment engine gap (some receiver) sender signal) :
    Outcome compiled engine (.report (some receiver) sender signal)
      (engine.receive receiver sender signal) := by
  obtain ⟨owner, node, child, start, live, atNode, _, adopts, _⟩ := reports.hears coherent
  have atEngine : engine.nodeOf owner = some node := by
    rw [nodeOf, coherent.kept.pattern, atNode]
  have distinct := coherent.kept.childrenNodup live
  have barren := Barren.refl coherent.kept.sound receiver
  have listed := adopts.mem_children
  rcases owner with ⟨number, parent, created, bindings, progress⟩
  simp only at atNode adopts distinct listed
  cases adopts with
  | every =>
      simp only [receive, live, atEngine]
      exact outcome_receiveEvery barren live atNode rfl
  | left =>
      simp only [receive, live, atEngine, ↓reduceIte]
      exact outcome_receiveLeft barren live atNode rfl
  | @right _ _ running _ _ _ member passed =>
      have notLeft : running ≠ some sender := by
        intro isLeft
        exact (List.nodup_append.mp distinct).2.2 sender (by simp [isLeft]) sender member rfl
      simp only [receive, live, atEngine, if_neg notLeft]
      exact (passive_receiveRight barren live).outcome live listed atNode rfl
  | alternation member isOperand =>
      simp only [receive, live, atEngine]
      exact (passive_receiveAlternation barren live _).outcome live listed atNode rfl
  | conjunction atChild atOperand isSender =>
      simp only [receive, live, atEngine]
      exact (passive_receiveConjunction barren live _).outcome live listed atNode rfl
  | repetition begun order =>
      simp only [receive, live, atEngine]
      exact outcome_receiveRepetition barren live atNode rfl
  | negation =>
      simp only [receive, live, atEngine]
      exact (passive_receiveNegation barren live).outcome live listed atNode rfl
  | within =>
      simp only [receive, live, atEngine]
      exact (passive_receiveWithin barren live _ _ _).outcome live listed atNode rfl
  | guarded =>
      simp only [receive, live, atEngine]
      exact (passive_receiveGuarded barren live _).outcome live listed atNode rfl

end Receive

section Perform

variable {compiled : CompiledPattern} {law : RowLaw compiled} {moment horizon : Nat}
  {engine : Engine} {starting : List Ticket} {ticket : Ticket} {state : PatternState}

/-- What a state that was brought an event or a time answers. -/
private theorem Passive.outcome_of_stimulus
    {answer : Engine × List Task}
    {task : Task}
    (passive : Passive engine ticket state answer)
    (isSubject : task.subject? = some ticket)
    (isStimulus : task.isStimulus = true)
    (live : engine.states.get? ticket = some state)
    (asBefore :
      ∀ {found : PatternState}, answer.1.states.get? ticket = some found → found = state) :
    Outcome compiled engine task answer := by
  refine .rested isSubject passive.barren passive.nodup (fun next member => ?_) ?_
  · obtain ⟨signal, isReport⟩ := passive.reports next member
    exact ⟨state, signal, live, isReport, fun _ => isStimulus⟩
  · intro found restart stillLive restarted _
    refine ⟨asBefore stillLive ▸ live, ?_, ?_⟩
    · rintro rfl
      cases restarted <;> cases isStimulus
    · cases task <;> first | rfl | cases isStimulus

/-- A filter that is shown an event matches, or waits on. -/
private theorem outcome_offer
    (sound : engine.states.Sound)
    (ticket : Ticket)
    (event : Event) :
    Outcome compiled engine (.offer ticket event) (engine.offer ticket event) := by
  have barren := Barren.refl sound ticket
  cases live : engine.states.get? ticket with
  | none =>
      simp only [offer, live]
      exact outcome_gone sound rfl live
  | some state =>
      have waits : ∀ {after : Engine}, Barren engine after ticket →
          after.states = engine.states →
            Outcome compiled engine (.offer ticket event) (after, []) := by
        intro after unchanged sameStates
        refine (unchanged.nothing state).outcome_of_stimulus rfl rfl live fun stillLive => ?_
        rw [sameStates, live] at stillLive
        exact (Option.some.inj stillLive).symm
      have ends : ∀ {after : Engine}, Barren engine after ticket → ∀ signal,
          Outcome compiled engine (.offer ticket event) (after.finish ticket signal) := by
        intro after unchanged signal
        refine (unchanged.finish live signal).outcome_of_stimulus rfl rfl live fun stillLive => ?_
        rw [get?_finish] at stillLive
        cases stillLive
      simp only [offer, live]
      split
      next slot predicate _ =>
          cases predicate with
          | none => exact ends barren _
          | some condition =>
              obtain ⟨faults, tested⟩ :=
                test_frame engine condition (state.bindings ++ [Value.event event])
              have sameStates :
                  (engine.test condition (state.bindings ++ [Value.event event])).1.states =
                    engine.states := by
                rw [tested]
              have unchanged := barren.withStates sameStates (by rw [tested])
              simp only
              split
              next => exact ends unchanged _
              next => exact waits unchanged sameStates
      next => exact waits barren rfl

/-- A state whose deadline has come ends. -/
private theorem outcome_expire
    (sound : engine.states.Sound)
    (ticket : Ticket) :
    Outcome compiled engine (.expire ticket) (engine.expire ticket) := by
  have barren := Barren.refl sound ticket
  cases live : engine.states.get? ticket with
  | none =>
      simp only [expire, live]
      exact outcome_gone sound rfl live
  | some state =>
      have ends : ∀ signal,
          Outcome compiled engine (.expire ticket) (engine.finish ticket signal) := by
        intro signal
        refine (barren.finish live signal).outcome_of_stimulus rfl rfl live fun stillLive => ?_
        rw [get?_finish] at stillLive
        cases stillLive
      simp only [expire, live]
      split
      next => exact ends _
      next => exact ends _
      next => exact ends _
      next =>
          refine (barren.nothing state).outcome_of_stimulus rfl rfl live fun stillLive => ?_
          exact Option.some.inj (stillLive.symm.trans live)

/-- A negation reports that its operand is absent so far. -/
private theorem outcome_absence
    (kept : engine.Kept law moment horizon)
    (isNegation :
      ∀ {state : PatternState}, engine.states.get? ticket = some state →
        ∃ child, compiled.nodes[state.node]? = some (.negation child)) :
    Outcome compiled engine (.absence ticket) (engine.perform (.absence ticket)) := by
  have barren := Barren.refl kept.sound ticket
  simp only [perform]
  cases live : engine.states.get? ticket with
  | none => exact outcome_gone kept.sound rfl live
  | some state =>
      obtain ⟨child, atNode⟩ := isNegation live
      refine .rested rfl barren (List.nodup_singleton _) (fun next member => ?_) ?_
      · refine ⟨state, _, live, List.mem_singleton.mp member, fun isLeaf => ?_⟩
        obtain ⟨node, atLeaf, isLeaf⟩ := isLeaf
        cases atNode.symm.trans atLeaf
        cases isLeaf
      · intro found restart stillLive restarted
        cases live.symm.trans stillLive
        exact absurd restarted (not_restartedBy atNode rfl)

/-- Performing a task that is due has one of these outcomes. -/
theorem outcome_perform
    (table : compiled.Sound)
    {task : Task}
    {rest : List Task}
    (ready : Ready law moment horizon engine starting (task :: rest)) :
    Outcome compiled engine task (engine.perform task) := by
  cases task with
  | activate ticket => exact outcome_activate table ready.1 rfl
  | operand owner ticket =>
      simp only [perform]
      split
      next => exact outcome_activate table ready.1 rfl
      next ownerGone =>
          have dead := ready.1.get?_of_ownerless
            (ready.2 (.operand owner ticket) (by simp)).2 ownerGone
          rw [release_of_dead dead]
          exact outcome_gone ready.1.kept.sound rfl dead
  | absence ticket =>
      exact outcome_absence ready.1.kept (ready.2 (.absence ticket) (by simp)).2
  | report receiver sender signal =>
      obtain ⟨gap, coherent, reports, _⟩ := ready
      cases receiver with
      | none =>
          refine .concluded ?_
          cases signal <;> rfl
      | some receiver => exact outcome_receive coherent reports
  | rearm ticket => exact outcome_rearm table ready.1
  | iterate ticket => exact outcome_iterate table ready.1
  | offer ticket event => exact outcome_offer ready.1.kept.sound ticket event
  | expire ticket => exact outcome_expire ready.1.kept.sound ticket

theorem Outcome.evolves
    {task : Task}
    {answer : Engine × List Task}
    (outcome : Outcome compiled engine task answer) :
    Evolves engine answer.1 := by
  cases outcome with
  | concluded sameStates => exact .of_states_eq sameStates
  | rested _ barren _ _ _ => exact barren.steady.evolves
  | heard _ _ barren _ _ _ => exact barren.steady.evolves
  | continued _ _ _ _ steady _ _ _ _ _ _ => exact steady.evolves
  | opened _ _ _ opens _ _ => exact opens.steady.evolves

/-- What is live after a task is new, or as it was, or what the task is about. -/
theorem Outcome.live_cases
    {task : Task}
    {answer : Engine × List Task}
    (outcome : Outcome compiled engine task answer)
    {found : PatternState}
    (live : answer.1.states.get? ticket = some found) :
    (¬engine.states.Issued ticket ∧ found.IsFresh engine.pattern) ∨
      (task.subject? ≠ some ticket ∧ engine.states.get? ticket = some found) ∨
        (task.subject? = some ticket ∧ engine.states.Issued ticket) := by
  have old : ∀ {worked : Ticket}, Steady engine answer.1 worked → task.subject? = some worked →
      engine.states.Issued ticket →
        (task.subject? ≠ some ticket ∧ engine.states.get? ticket = some found) ∨
          (task.subject? = some ticket ∧ engine.states.Issued ticket) := by
    intro worked steady isSubject issued
    by_cases isWorked : ticket = worked
    · exact .inr ⟨isWorked ▸ isSubject, issued⟩
    · refine .inl ⟨fun same => isWorked ?_, steady.others issued isWorked live⟩
      exact Option.some.inj (same.symm.trans isSubject)
  cases outcome with
  | concluded sameStates => exact .inr (.inl ⟨nofun, sameStates ▸ live⟩)
  | rested isSubject barren _ _ _ => exact .inr (old barren.steady isSubject (barren.issued live))
  | heard _ _ barren _ _ _ => exact .inr (old barren.steady rfl (barren.issued live))
  | continued _ _ _ _ steady notIssued birthLive _ _ isFresh known =>
      rcases known live with issued | rfl
      · exact .inr (old steady rfl issued)
      · cases birthLive.symm.trans live
        exact .inl ⟨notIssued, isFresh⟩
  | opened isSubject _ _ opens _ _ =>
      rcases opens.known live with issued | isBirth
      · exact .inr (old opens.steady isSubject issued)
      · obtain ⟨notIssued, state, birthLive, _, _, _, isFresh⟩ := opens.born ticket isBirth
        cases birthLive.symm.trans live
        exact .inl ⟨notIssued, isFresh⟩

end Perform

end Engine

end EventQuery
