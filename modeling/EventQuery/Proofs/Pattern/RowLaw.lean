import EventQuery.Pattern.Step
import EventQuery.Proofs.Pattern.NodeTable

namespace EventQuery

/-!
# Laws about rows

Bindings travel through a running pattern in rows: a state starts with one, reports others, and
hands rows on to the states that it starts.  A row law says which rows may occur at which node, and
gives one closure condition for each way in which an operator passes rows on.  Whatever a law says
then holds in every run, so that a fact about rows is proved by giving its law.

Moments count the calls: a law may say more about what has happened before a call than about what
happens in it.
-/

namespace PatternNode

/-- The operands that start with the bindings of their operator. -/
def opening : PatternNode → List Nat
  | .every child => [child]
  | .sequence left _ => [left]
  | .alternation children => children
  | .conjunction children => children
  | .negation child => [child]
  | .within child _ _ => [child]
  | .guarded child _ => [child]
  | _ => []

/-- The operands whose matches are matches of their operator. -/
def passing : PatternNode → List Nat
  | .every child => [child]
  | .alternation children => children
  | .within child _ _ => [child]
  | .guarded child _ => [child]
  | _ => []

/-- Operands that start with the bindings of their operator are operands. -/
theorem opening_subset
    {node : PatternNode}
    {child : Nat}
    (member : child ∈ node.opening) :
    child ∈ node.children := by
  cases node <;> simp_all [opening, children]

/-- Operands whose matches are passed on are operands. -/
theorem passing_subset
    {node : PatternNode}
    {child : Nat}
    (member : child ∈ node.passing) :
    child ∈ node.children := by
  cases node <;> simp_all [passing, children]

end PatternNode

namespace CompiledPattern

/-- The bindings with which a pattern starts. -/
def blank (compiled : CompiledPattern) : Row := List.replicate compiled.width .null

end CompiledPattern

/-- Bindings with an event put at a slot, if there is one. -/
def bindEvent (bindings : Row) (slot : Option Nat) (event : Event) : Row :=
  match slot with
  | none => bindings
  | some slot => bindings.set slot (.event event)

/-- Which rows may occur at which node at which moment, closed under all that operators do. -/
structure RowLaw (compiled : CompiledPattern) where
  /-- At a moment, a state of a node may start with a row. -/
  start : Nat → Nat → Row → Prop
  /-- At a moment, a state of a node that started with the first row may report the second. -/
  yield : Nat → Nat → Row → Row → Prop
  /-- At a moment, a repetition that started with a row may have collected another in its rounds. -/
  rounds : Nat → Nat → Row → Nat → Row → Prop
  /-- An event may be shown at a moment. -/
  admits : Nat → Event → Prop
  start_mono :
    ∀ {early late number : Nat} {row : Row}, early ≤ late →
      start early number row → start late number row
  yield_mono :
    ∀ {early late number : Nat} {row found : Row}, early ≤ late →
      yield early number row found → yield late number row found
  rounds_mono :
    ∀ {early late number count : Nat} {row collected : Row}, early ≤ late →
      rounds early number row count collected → rounds late number row count collected
  start_blank : start 0 CompiledPattern.rootNumber compiled.blank
  yield_filter :
    ∀ {now number : Nat} {eventType : String} {slot : Option Nat} {predicate : Option Node}
      {row : Row} {event : Event},
      compiled.nodes[number]? = some (.filter eventType slot predicate) →
        start now number row → admits now event → event.kind = eventType →
          yield (now + 1) number row (bindEvent row slot event)
  yield_timer :
    ∀ {now number duration : Nat} {row : Row},
      compiled.nodes[number]? = some (.timer duration) →
        start now number row → yield now number row row
  yield_negation :
    ∀ {now number child : Nat} {row : Row},
      compiled.nodes[number]? = some (.negation child) →
        start now number row → yield now number row row
  start_opening :
    ∀ {now number child : Nat} {node : PatternNode} {row : Row},
      compiled.nodes[number]? = some node → child ∈ node.opening →
        start now number row → start now child row
  yield_passing :
    ∀ {now number child : Nat} {node : PatternNode} {row found : Row},
      compiled.nodes[number]? = some node → child ∈ node.passing →
        start now number row → yield now child row found → yield now number row found
  start_right :
    ∀ {now number left right : Nat} {row middle : Row},
      compiled.nodes[number]? = some (.sequence left right) →
        start now number row → yield now left row middle → start now right middle
  yield_right :
    ∀ {now number left right : Nat} {row middle found : Row},
      compiled.nodes[number]? = some (.sequence left right) →
        start now number row → yield now left row middle → yield now right middle found →
          yield now number row found
  yield_merge :
    ∀ {now number : Nat} {children : List Nat} {row : Row} {operands : List Conjunct},
      compiled.nodes[number]? = some (.conjunction children) →
        start now number row →
          List.Forall₂
            (fun child operand =>
              ∃ found, operand.bindings = some found ∧ yield now child row found)
            children operands →
            yield now number row (Conjunct.merge row operands)
  rounds_initial :
    ∀ {now number child least : Nat} {most : Option Nat} {innerSlots : List Nat} {row : Row},
      compiled.nodes[number]? = some (.repetition child least most innerSlots) →
        start now number row →
          rounds now number row 0 (Progress.withEmptySequences row innerSlots)
  start_round :
    ∀ {now number child least count : Nat} {most : Option Nat} {innerSlots : List Nat}
      {row collected : Row},
      compiled.nodes[number]? = some (.repetition child least most innerSlots) →
        start now number row → rounds now number row count collected →
          start now child (Engine.roundBindings collected innerSlots)
  rounds_collect :
    ∀ {now number child least earlier count : Nat} {most : Option Nat} {innerSlots : List Nat}
      {row early collected found : Row},
      compiled.nodes[number]? = some (.repetition child least most innerSlots) →
        start now number row → earlier ≤ count → rounds now number row earlier early →
          rounds now number row count collected →
            yield now child (Engine.roundBindings early innerSlots) found →
              rounds now number row (count + 1) (Engine.collect collected found innerSlots)
  yield_rounds :
    ∀ {now number child least count : Nat} {most : Option Nat} {innerSlots : List Nat}
      {row collected : Row},
      compiled.nodes[number]? = some (.repetition child least most innerSlots) →
        start now number row → rounds now number row (count + 1) collected →
          yield now number row collected

namespace RowLaw

variable {compiled : CompiledPattern}

/--
The progress of a state is that of its node, and the rows kept in it are as the law says.  A
conjunction that has not begun has no operands yet.
-/
inductive Fits (law : RowLaw compiled) (now number : Nat) (start : Row) :
    PatternNode → Progress → Prop where
  | filter {eventType : String} {slot : Option Nat} {predicate : Option Node} :
      Fits law now number start (.filter eventType slot predicate) .filter
  | timer {duration : Nat} {deadline : Int} :
      Fits law now number start (.timer duration) (.timer deadline)
  | every {child : Nat} {running : Option Ticket} :
      Fits law now number start (.every child) (.every running)
  | sequence {left right : Nat} {running : Option Ticket} {rights : List Ticket} :
      Fits law now number start (.sequence left right) (.sequence running rights)
  | alternation {children : List Nat} {running : List Ticket} :
      Fits law now number start (.alternation children) (.alternation running)
  | conjunction {children : List Nat} {operands : List Conjunct} :
      (operands = [] ∨
        List.Forall₂
          (fun child operand =>
            ∀ found, operand.bindings = some found → law.yield now child start found)
          children operands) →
        Fits law now number start (.conjunction children) (.conjunction operands)
  | repetition {child least count : Nat} {most : Option Nat} {innerSlots : List Nat}
      {running : Option Ticket} {collected : Row} :
      law.rounds now number start count collected →
        Fits law now number start (.repetition child least most innerSlots)
          (.repetition running count collected)
  | negation {child : Nat} {running : Option Ticket} :
      Fits law now number start (.negation child) (.negation running)
  | within {child duration : Nat} {absence : Bool} {running : Option Ticket} {deadline : Int}
      {held : Option Row} :
      (∀ found, held = some found → law.yield now child start found) →
        Fits law now number start (.within child duration absence)
          (.within running deadline held)
  | guarded {child : Nat} {guard : Node} {running : Option Ticket} :
      Fits law now number start (.guarded child guard) (.guarded running)

/--
A state lists a ticket at the place of one operand, and the state behind the ticket started with a
row that the law lets the operator hand on.
-/
inductive Adopts (law : RowLaw compiled) (now number : Nat) (start : Row) :
    PatternNode → Progress → Ticket → Nat → Row → Prop where
  | every {child : Nat} {ticket : Ticket} :
      Adopts law now number start (.every child) (.every (some ticket)) ticket child start
  | left {left right : Nat} {ticket : Ticket} {rights : List Ticket} :
      Adopts law now number start (.sequence left right) (.sequence (some ticket) rights)
        ticket left start
  | right {left right : Nat} {running : Option Ticket} {ticket : Ticket} {rights : List Ticket}
      {middle : Row} :
      ticket ∈ rights → law.yield now left start middle →
        Adopts law now number start (.sequence left right) (.sequence running rights)
          ticket right middle
  | alternation {children : List Nat} {child : Nat} {running : List Ticket} {ticket : Ticket} :
      ticket ∈ running → child ∈ children →
        Adopts law now number start (.alternation children) (.alternation running)
          ticket child start
  | conjunction {children : List Nat} {child place : Nat} {operands : List Conjunct}
      {operand : Conjunct} {ticket : Ticket} :
      children[place]? = some child → operands[place]? = some operand →
        operand.state = some ticket →
          Adopts law now number start (.conjunction children) (.conjunction operands)
            ticket child start
  | repetition {child least earlier count : Nat} {most : Option Nat} {innerSlots : List Nat}
      {ticket : Ticket} {early collected : Row} :
      law.rounds now number start earlier early → earlier ≤ count →
        Adopts law now number start (.repetition child least most innerSlots)
          (.repetition (some ticket) count collected) ticket child
          (Engine.roundBindings early innerSlots)
  | negation {child : Nat} {ticket : Ticket} :
      Adopts law now number start (.negation child) (.negation (some ticket)) ticket child start
  | within {child duration : Nat} {absence : Bool} {ticket : Ticket} {deadline : Int}
      {held : Option Row} :
      Adopts law now number start (.within child duration absence)
        (.within (some ticket) deadline held) ticket child start
  | guarded {child : Nat} {guard : Node} {ticket : Ticket} :
      Adopts law now number start (.guarded child guard) (.guarded (some ticket)) ticket child
        start

section Rows

variable {law : RowLaw compiled} {now later number child : Nat} {start row : Row}
  {node : PatternNode} {progress : Progress} {ticket : Ticket}

theorem Adopts.mem_children
    (adopts : law.Adopts now number start node progress ticket child row) :
    ticket ∈ progress.children := by
  cases adopts with
  | right member _ =>
      simp [Progress.children, member]
  | alternation member _ =>
      exact member
  | conjunction _ atPlace isTicket =>
      exact List.mem_filterMap.mpr ⟨_, List.mem_of_getElem? atPlace, isTicket⟩
  | _ =>
      simp [Progress.children]

/-- A state lists the operands of its node. -/
theorem Adopts.mem_operands
    (adopts : law.Adopts now number start node progress ticket child row) :
    child ∈ node.children := by
  cases adopts with
  | alternation _ operand =>
      exact operand
  | conjunction atChild _ _ =>
      exact List.mem_of_getElem? atChild
  | _ =>
      simp [PatternNode.children]

theorem Adopts.mono
    (adopts : law.Adopts now number start node progress ticket child row)
    (earlier : now ≤ later) :
    law.Adopts later number start node progress ticket child row := by
  cases adopts with
  | right member yields =>
      exact .right member (law.yield_mono earlier yields)
  | repetition rounds order =>
      exact .repetition (law.rounds_mono earlier rounds) order
  | alternation member operand =>
      exact .alternation member operand
  | conjunction atPlace found isTicket =>
      exact .conjunction atPlace found isTicket
  | _ =>
      constructor

theorem Fits.mono
    (fits : law.Fits now number start node progress)
    (earlier : now ≤ later) :
    law.Fits later number start node progress := by
  cases fits with
  | conjunction operands =>
      refine .conjunction (operands.imp_right fun all => all.imp ?_)
      intro child operand yields found isFound
      exact law.yield_mono earlier (yields found isFound)
  | repetition rounds =>
      exact .repetition (law.rounds_mono earlier rounds)
  | within held =>
      exact .within fun found isFound => law.yield_mono earlier (held found isFound)
  | _ =>
      constructor

theorem fits_initial
    (atNumber : compiled.nodes[number]? = some node)
    (starts : law.start now number start)
    (time : Int) :
    law.Fits now number start node (Progress.initial time start node) := by
  cases node with
  | conjunction children =>
      exact .conjunction (.inl rfl)
  | repetition child least most innerSlots =>
      exact .repetition (law.rounds_initial atNumber starts)
  | within child duration absence =>
      exact .within (by simp)
  | _ =>
      constructor

@[simp] theorem children_initial
    (time : Int)
    (start : Row)
    (node : PatternNode) :
    (Progress.initial time start node).children = [] := by
  cases node <;> rfl

end Rows

end RowLaw

end EventQuery
