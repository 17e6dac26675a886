import EventQuery.Binding.Node
import EventQuery.Statement.Plan

namespace EventQuery

/-!
# Joins

An arriving event is paired with the events of the other side that are still held, and then it is
held itself.  It is never paired with itself, also when both sides take events of its type.
-/

/-- The events of both sides that can be paired with later ones, oldest first. -/
structure JoinBuffers where
  left : List Event
  right : List Event

/-- The rows that an event made, and the faults of the join condition. -/
structure Pairing where
  rows : List Row
  faults : List Fault

namespace JoinBuffers

/-- The buffers that hold no event. -/
def empty : JoinBuffers := ⟨[], []⟩

end JoinBuffers

namespace Pairing

/-- No rows and no faults. -/
def empty : Pairing := ⟨[], []⟩

/-- One pairing after another. -/
def append (first second : Pairing) : Pairing :=
  ⟨first.rows ++ second.rows, first.faults ++ second.faults⟩

/-- The row of two events. -/
def row (left right : Event) : Row := [.event left, .event right]

/-- Whether a row passes the join condition. -/
def passes (condition : Option Node) (row : Row) (occasion : Occasion) : Except Fault Bool :=
  match condition with
  | none => .ok true
  | some node => node.passes row occasion

/-- The rows that pass the join condition, numbered from a position on. -/
def select (condition : Option Node) (occasion : Occasion) : Nat → List Row → Pairing
  | _, [] => empty
  | position, row :: rest =>
      let others := select condition occasion (position + 1) rest
      match passes condition row (position :: occasion) with
      | .ok true => ⟨row :: others.rows, others.faults⟩
      | .ok false => others
      | .error fault => ⟨others.rows, fault :: others.faults⟩

/-- The pairs of an event that arrives at the left side.  An outer join keeps it without a partner. -/
def ofLeft (outer : Bool) (condition : Option Node) (buffers : JoinBuffers) (event : Event)
    (occasion : Occasion) : Pairing :=
  let pairs := select condition (0 :: occasion) 0 (buffers.right.map (row event))
  if outer && pairs.rows.isEmpty then { pairs with rows := [[.event event, .null]] } else pairs

/-- The pairs of an event that arrives at the right side. -/
def ofRight (condition : Option Node) (buffers : JoinBuffers) (event : Event)
    (occasion : Occasion) : Pairing :=
  select condition (1 :: occasion) 0 (buffers.left.map fun other => row other event)

/-- All pairs of an event, with those of the left side first. -/
def ofEvent (left right : JoinSide) (outer : Bool) (condition : Option Node)
    (buffers : JoinBuffers) (event : Event) (occasion : Occasion) : Pairing :=
  let lefts :=
    if event.kind = left.eventType then ofLeft outer condition buffers event occasion else empty
  let rights :=
    if event.kind = right.eventType then ofRight condition buffers event occasion else empty
  lefts.append rights

end Pairing

/-- The latest elements of a list, as many as are allowed. -/
def keepLatest {α : Type} (bound : Option Nat) (items : List α) : List α :=
  match bound with
  | none => items
  | some size => items.drop (items.length - size)

namespace JoinBuffers

/-- Hold an event at each side that takes its type. -/
def hold (buffers : JoinBuffers) (left right : JoinSide) (event : Event) : JoinBuffers where
  left :=
    if event.kind = left.eventType then keepLatest left.window (buffers.left ++ [event])
    else buffers.left
  right :=
    if event.kind = right.eventType then keepLatest right.window (buffers.right ++ [event])
    else buffers.right

end JoinBuffers

end EventQuery
