import EventQuery.Pattern.Run
import EventQuery.Proofs.Pattern.Release
import EventQuery.Proofs.Pattern.Relocation

namespace EventQuery

/-!
# Engines inside larger ones

A pattern may be the operand of operators around it, such as a time bound, that are alive as long as
it runs.  The engine of the larger pattern then is the engine of the smaller one inside a casing: the
states of the operators stand in the first slots, all other states are those of the smaller engine in
later places, and what the smaller pattern reports out goes to the innermost operator.  Each
operation on the smaller engine is the same operation on the larger one.
-/

/-- A tag whose repetitions have later numbers. -/
def Tag.later (places : Nat) (tag : Tag) : Tag :=
  { tag with repetitions := tag.repetitions.map (· + places) }

/-- A pattern behind some nodes. -/
def CompiledPattern.behind (pattern : CompiledPattern) (heads : List PatternNode) :
    CompiledPattern :=
  ⟨heads ++ pattern.nodes.map (PatternNode.renumber (· + heads.length)),
    pattern.tags.map (Tag.later heads.length)⟩

theorem CompiledPattern.blank_behind
    (pattern : CompiledPattern)
    (heads : List PatternNode) :
    (pattern.behind heads).blank = pattern.blank := by
  simp [blank, width, behind]

/-- What stands around a pattern that is the operand of other operators. -/
structure Casing where
  /-- The operators around the pattern, the outermost one first. -/
  heads : List PatternNode
  /-- Their states. -/
  slots : Array (PoolSlot PatternState)
  sameSize : slots.size = heads.length
  /-- The state of the outermost operator. -/
  root : Ticket
  /-- The state of the innermost operator, to which the pattern reports. -/
  owner : Ticket
  /-- The deadlines of the operators. -/
  deadlines : StateIndex
  early : ∀ entry ∈ deadlines, entry.1.created < slots.size
  /-- The most tasks that are performed in one call. -/
  patience : Nat
  /-- What the operators have to do afterwards. -/
  afterwards : List Task

namespace Casing

variable (casing : Casing)

/-- The number of operators around the pattern. -/
def depth : Nat := casing.slots.size

/-- The ticket of a state inside. -/
def ticket (ticket : Ticket) : Ticket := ticket.behind casing.depth

/-- The receiver of a signal from inside. -/
def receiver (receiver : Option Ticket) : Ticket := receiver.elim casing.owner casing.ticket

/-- A progress inside. -/
def progress (progress : Progress) : Progress := progress.rename casing.ticket

/-- A state inside. -/
def state (state : PatternState) : PatternState :=
  { node := state.node + casing.depth
    parent := some (casing.receiver state.parent)
    created := state.created + casing.depth
    bindings := state.bindings
    progress := casing.progress state.progress }

/-- A task inside. -/
def task : Task → Task
  | .activate state => .activate (casing.ticket state)
  | .operand owner state => .operand (casing.ticket owner) (casing.ticket state)
  | .absence state => .absence (casing.ticket state)
  | .report receiver sender signal =>
      .report (some (casing.receiver receiver)) (casing.ticket sender) signal
  | .rearm state => .rearm (casing.ticket state)
  | .iterate state => .iterate (casing.ticket state)
  | .offer state event => .offer (casing.ticket state) event
  | .expire state => .expire (casing.ticket state)

/-- An engine inside. -/
def engine (engine : Engine) : Engine :=
  { pattern := engine.pattern.behind casing.heads
    states := engine.states.behind casing.slots casing.state
    root := some casing.root
    filters := engine.filters.relocate casing.depth casing.depth casing.depth
    deadlines := casing.deadlines ++ engine.deadlines.relocate 0 casing.depth casing.depth
    next := engine.next + casing.depth
    now := engine.now
    limit := engine.limit
    patience := casing.patience
    leaves := engine.leaves
    completed := engine.completed
    faults := engine.faults
    agenda := engine.agenda.map casing.task ++ casing.afterwards }

/-- What was done and what comes next, inside. -/
def answer (answer : Engine × List Task) : Engine × List Task :=
  (casing.engine answer.1, answer.2.map casing.task)

section Operations

variable {casing} {inner : Engine} {ticket : Ticket} {state : PatternState}

theorem ticket_injective : Function.Injective casing.ticket := Ticket.behind_injective casing.depth

/-- The states of the operators around are found under their own tickets. -/
theorem get?_front
    (atSlot : casing.slots[ticket.index]? = some ⟨ticket.generation, some state⟩) :
    (casing.engine inner).states.get? ticket = some state :=
  Pool.get?_front atSlot

theorem get?_engine :
    (casing.engine inner).states.get? (casing.ticket ticket) =
      (inner.states.get? ticket).map casing.state :=
  Pool.get?_behind

theorem contains_engine :
    (casing.engine inner).states.contains (casing.ticket ticket) = inner.states.contains ticket :=
  Pool.contains_behind

theorem getElem?_nodes (number : Nat) :
    (casing.engine inner).pattern.nodes[number + casing.depth]? =
      inner.pattern.nodes[number]?.map (PatternNode.renumber (· + casing.depth)) := by
  have sameSize : casing.depth = casing.heads.length := casing.sameSize
  simp only [engine, CompiledPattern.behind, sameSize]
  rw [List.getElem?_append_right (Nat.le_add_left _ _), Nat.add_sub_cancel, List.getElem?_map]

theorem nodeOf_engine :
    (casing.engine inner).nodeOf (casing.state state) =
      (inner.nodeOf state).map (PatternNode.renumber (· + casing.depth)) :=
  getElem?_nodes state.node

theorem newState_engine (node : Nat) (parent : Option Ticket) (bindings : Row) :
    (casing.engine inner).newState (node + casing.depth) (some (casing.receiver parent)) bindings =
      casing.state (inner.newState node parent bindings) := by
  have sameProgress :
      ((casing.engine inner).pattern.nodes[node + casing.depth]?.map
          (Progress.initial inner.now bindings)).getD .filter =
        casing.progress ((inner.pattern.nodes[node]?.map
          (Progress.initial inner.now bindings)).getD .filter) := by
    rw [getElem?_nodes]
    cases inner.pattern.nodes[node]? with
    | none => rfl
    | some found => exact Progress.initial_renumber _ _ _
  exact congrArg (PatternState.mk _ _ _ _) sameProgress

theorem create_engine (node : Nat) (parent : Option Ticket) (bindings : Row) :
    (casing.engine inner).create (node + casing.depth) (some (casing.receiver parent)) bindings =
      (casing.engine (inner.create node parent bindings).1,
        casing.ticket (inner.create node parent bindings).2) := by
  have inserted : (casing.engine inner).states.insert
      ((casing.engine inner).newState (node + casing.depth) (some (casing.receiver parent))
        bindings) =
      ((inner.states.insert (inner.newState node parent bindings)).1.behind casing.slots
          casing.state,
        casing.ticket (inner.states.insert (inner.newState node parent bindings)).2) := by
    rw [newState_engine]
    exact Pool.insert_behind _
  have sameNext : inner.next + casing.depth + 1 = inner.next + 1 + casing.depth := by omega
  have created : ∀ (engine : Engine) (node : Nat) (parent : Option Ticket),
      engine.create node parent bindings =
        ({ engine with
            states := (engine.states.insert (engine.newState node parent bindings)).1
            next := engine.next + 1 },
          (engine.states.insert (engine.newState node parent bindings)).2) :=
    fun _ _ _ => rfl
  rw [created, created, inserted]
  simp only [engine, sameNext]

theorem createAll_engine (owner : Ticket) (bindings : Row) (nodes : List Nat) :
    (casing.engine inner).createAll (casing.ticket owner) bindings
        (nodes.map (· + casing.depth)) =
      (casing.engine (inner.createAll owner bindings nodes).1,
        (inner.createAll owner bindings nodes).2.map casing.ticket) := by
  induction nodes generalizing inner with
  | nil => rfl
  | cons node rest inductionHypothesis =>
      have created := @create_engine casing inner node (some owner) bindings
      simp only [receiver, Option.elim_some] at created
      simp only [List.map_cons, Engine.createAll, created, inductionHypothesis]

theorem update_engine
    {change other : Progress → Progress}
    (same : ∀ progress, other (casing.progress progress) = casing.progress (change progress)) :
    (casing.engine inner).update (casing.ticket ticket) other =
      casing.engine (inner.update ticket change) := by
  have modified : (casing.engine inner).states.modify (casing.ticket ticket)
      (fun state => state.advance other) =
      (inner.states.modify ticket fun state => state.advance change).behind casing.slots
        casing.state :=
    Pool.modify_behind fun state => by
      simp only [PatternState.advance, Casing.state, same]
  rw [Engine.update, modified]
  rfl

theorem await_engine :
    (casing.engine inner).await (casing.ticket ticket) (casing.state state) =
      casing.engine (inner.await ticket state) := by
  have inserted : StateIndex.insert (casing.engine inner).filters
      ⟨((state.node + casing.depth : Nat) : Int), state.created + casing.depth⟩
      (casing.ticket ticket) =
      (StateIndex.insert inner.filters ⟨state.node, state.created⟩ ticket).relocate casing.depth
        casing.depth casing.depth := by
    rw [← StateIndex.insert_relocate]
    rfl
  simp only [Engine.await, Casing.state, inserted]
  rfl

/-- The deadlines of the operators around stay when one inside is dropped. -/
theorem erase_deadlines (main : Int) (created : Nat) :
    StateIndex.erase (casing.engine inner).deadlines ⟨main, created + casing.depth⟩ =
      casing.deadlines ++
        (StateIndex.erase inner.deadlines ⟨main, created⟩).relocate 0 casing.depth
          casing.depth := by
  rw [← StateIndex.erase_relocate, Rank.later_zero]
  simp only [engine, StateIndex.erase, List.filter_append]
  refine congrArg (· ++ _) (List.filter_eq_self.mpr fun entry member => ?_)
  have early : entry.1.created < casing.depth := casing.early entry member
  rw [bne_iff_ne]
  intro same
  rw [same] at early
  simp only at early
  omega

/-- Whether a state inside has a deadline is not affected by the operators around. -/
theorem contains_deadlines (main : Int) (created : Nat) :
    StateIndex.contains (casing.engine inner).deadlines ⟨main, created + casing.depth⟩ =
      StateIndex.contains inner.deadlines ⟨main, created⟩ := by
  have around : (casing.deadlines.any fun entry => entry.1 == ⟨main, created + casing.depth⟩) =
      false := by
    rw [List.any_eq_false]
    intro entry member same
    have early : entry.1.created < casing.depth := casing.early entry member
    rw [eq_of_beq same] at early
    simp only at early
    omega
  have inside := @StateIndex.contains_relocate 0 casing.depth casing.depth inner.deadlines
    ⟨main, created⟩
  rw [Rank.later_zero] at inside
  rw [← inside]
  simp only [engine, StateIndex.contains, List.any_append, around, Bool.false_or]

theorem unlist_engine :
    (casing.engine inner).unlist (casing.state state) = casing.engine (inner.unlist state) := by
  obtain ⟨node, parent, created, bindings, progress⟩ := state
  cases progress with
  | filter =>
      have erased : StateIndex.erase (casing.engine inner).filters
          ⟨((node + casing.depth : Nat) : Int), created + casing.depth⟩ =
          (StateIndex.erase inner.filters ⟨node, created⟩).relocate casing.depth casing.depth
            casing.depth := by
        rw [← StateIndex.erase_relocate]
        rfl
      have contained : StateIndex.contains (casing.engine inner).filters
          ⟨((node + casing.depth : Nat) : Int), created + casing.depth⟩ =
          StateIndex.contains inner.filters ⟨node, created⟩ :=
        @StateIndex.contains_relocate casing.depth casing.depth casing.depth inner.filters
          ⟨node, created⟩
      simp only [Engine.unlist, Casing.state, Casing.progress, Progress.rename, erased, contained]
      rfl
  | timer deadline =>
      simp only [Engine.unlist, Casing.state, Casing.progress, Progress.rename, erase_deadlines,
        contains_deadlines]
      rfl
  | within child deadline held =>
      simp only [Engine.unlist, Casing.state, Casing.progress, Progress.rename, erase_deadlines]
      rfl
  | _ => rfl

theorem release_engine (tickets : List Ticket) :
    (casing.engine inner).release (tickets.map casing.ticket) =
      casing.engine (inner.release tickets) := by
  have taken : ∀ (engine : Engine) (ticket : Ticket),
      (casing.engine engine).states.take (casing.ticket ticket) =
        (engine.states.take ticket).map fun taken =>
          (casing.state taken.1, taken.2.behind casing.slots casing.state) :=
    fun engine ticket => Pool.take_behind
  induction inner, tickets using Engine.release.induct with
  | case1 inner =>
      simp [Engine.release]
  | case2 inner ticket rest gone inductionHypothesis =>
      rw [List.map_cons, Engine.release_of_gone (by rw [taken, gone]; rfl), inductionHypothesis,
        Engine.release_of_gone gone]
  | case3 inner ticket rest state states took fewer inductionHypothesis =>
      have dropped : (casing.engine inner).drop (casing.state state)
          (states.behind casing.slots casing.state) = casing.engine (inner.drop state states) := by
        rw [Engine.drop, unlist_engine]
        rfl
      have children : (casing.state state).progress.children =
          state.progress.children.map casing.ticket :=
        Progress.children_rename
      rw [List.map_cons, Engine.release_of_took (by rw [taken, took, Option.map_some]),
        Engine.release_of_took took, dropped, children, ← List.map_append]
      exact inductionHypothesis

theorem finish_engine (signal : Signal) :
    (casing.engine inner).finish (casing.ticket ticket) signal =
      casing.answer (inner.finish ticket signal) := by
  rw [Engine.finish, get?_engine, Engine.finish]
  cases inner.states.get? ticket with
  | none => rfl
  | some state =>
      have released := @release_engine casing inner [ticket]
      simp only [List.map_cons, List.map_nil] at released
      simp only [Option.map_some, released]
      rfl

theorem startChild_engine (child : Nat) (bindings : Row) :
    (casing.engine inner).startChild (casing.ticket ticket) (child + casing.depth) bindings =
      casing.answer (inner.startChild ticket child bindings) := by
  have created := @create_engine casing inner child (some ticket) bindings
  simp only [receiver, Option.elim_some] at created
  simp only [Engine.startChild, created]
  have changes : ∀ progress,
      Progress.withChild (casing.ticket (inner.create child (some ticket) bindings).2)
          (casing.progress progress) =
        casing.progress
          (Progress.withChild (inner.create child (some ticket) bindings).2 progress) := by
    intro progress
    cases progress <;> rfl
  rw [update_engine changes]
  rfl

theorem startOperands_engine (operands : List Nat) (bindings : Row) :
    (casing.engine inner).startOperands (casing.ticket ticket) (operands.map (· + casing.depth))
        bindings =
      casing.answer (inner.startOperands ticket operands bindings) := by
  simp only [Engine.startOperands, createAll_engine]
  have changes : ∀ progress,
      Progress.withOperands ((inner.createAll ticket bindings operands).2.map casing.ticket)
          (casing.progress progress) =
        casing.progress
          (Progress.withOperands (inner.createAll ticket bindings operands).2 progress) := by
    intro progress
    cases progress with
    | conjunction operands =>
        simp only [Casing.progress, Progress.rename, Progress.withOperands, List.map_map]
        rfl
    | _ => rfl
  rw [update_engine changes]
  simp only [answer, List.map_map]
  rfl

theorem test_engine (condition : Node) (row : Row) :
    (casing.engine inner).test condition row =
      (casing.engine (inner.test condition row).1, (inner.test condition row).2) := by
  simp only [Engine.test]
  cases condition.passes row [] <;> rfl

end Operations

end Casing

end EventQuery
