import EventQuery.Proofs.Binding.Yields
import EventQuery.Proofs.Store.Entries
import Mathlib.Data.List.Nodup

namespace EventQuery

/-!
# Sequences of events

The slot of an indexed stream holds a sequence of events, which has no properties of its own.  There
are several ways to a property of a stream: by the name of the stream, by the default stream, by the
only stream that declares the property, and through the results of items and calls.  None of them
leads into a sequence: a bound expression reads properties of single events only, and a chain that
asks a whole indexed stream for a property is refused.
-/

namespace Node

mutual

/-- An expression and the expressions that it is made of, arguments included. -/
def parts (node : Node) : List Node :=
  node ::
    match node with
    | .literal _ | .slot _ _ | .row _ | .access _ _ _ => []
    | .read receiver _ _ _ => parts receiver
    | .item receiver _ _ => parts receiver
    | .builtin receiver _ arguments _ => parts receiver ++ partsOfAll arguments
    | .method receiver _ arguments _ => parts receiver ++ partsOfAll arguments
    | .function _ arguments _ => partsOfAll arguments
    | .binary _ left right _ => parts left ++ parts right
    | .not operand => parts operand
    | .neg operand _ => parts operand

/-- The expressions that several expressions are made of. -/
def partsOfAll : List Node → List Node
  | [] => []
  | node :: rest => parts node ++ partsOfAll rest

end

/-- A part of several expressions is a part of one of them. -/
theorem mem_partsOfAll
    {nodes : List Node}
    {part : Node} :
    part ∈ partsOfAll nodes ↔ ∃ node ∈ nodes, part ∈ node.parts := by
  induction nodes with
  | nil => simp [partsOfAll]
  | cons node rest inductionHypothesis => simp [partsOfAll, inductionHypothesis]

/--
Whether an expression does not read a property of a sequence: neither of the slot of an indexed
stream, nor of a result that is a collection.
-/
def ReadsSingle (scope : Scope) : Node → Prop
  | .access index _ _ => ∀ stream ∈ scope.streams, stream.indexed = true → stream.slot ≠ index
  | .read receiver _ _ _ => ∀ element, receiver.type ≠ .array element
  | _ => True

end Node

namespace Scope

variable {scope : Scope}

/-- The slots that streams and aggregation results are found at. -/
def slots (scope : Scope) : List Nat :=
  scope.streams.map Stream.slot ++ scope.aggregates.map fun entry => entry.2.1

/-- Streams at one slot are the same stream when all slots are different. -/
theorem eq_of_slot
    (distinct : scope.slots.Nodup)
    {stream other : Stream}
    (member : stream ∈ scope.streams)
    (otherMember : other ∈ scope.streams)
    (same : stream.slot = other.slot) :
    stream = other :=
  List.inj_on_of_nodup_map (List.nodup_append.mp distinct).1 member otherMember same

/-- An aggregation result is not at the slot of a stream when all slots are different. -/
theorem slot_ne_of_aggregate
    (distinct : scope.slots.Nodup)
    {stream : Stream}
    {call : String}
    {slot : Nat}
    {type : ValueType}
    (member : stream ∈ scope.streams)
    (found : scope.aggregate? call = some (slot, type)) :
    stream.slot ≠ slot := by
  obtain ⟨held, _, entry⟩ := Table.mem_of_find? found
  exact (List.nodup_append.mp distinct).2.2 _ (List.mem_map_of_mem member) _
    (List.mem_map_of_mem (f := fun entry => entry.2.1) entry)

/-- A slot that holds an event is not that of an indexed stream. -/
theorem single_of_makes_slot
    {admitted : Value → Prop}
    {written : String → List Expr → Prop}
    (distinct : scope.slots.Nodup)
    {slot : Nat}
    {type : ValueType}
    (made : scope.Makes admitted written (.slot slot type))
    (isEvent : type.isEvent = true)
    {stream : Stream}
    (member : stream ∈ scope.streams)
    (isIndexed : stream.indexed = true) :
    stream.slot ≠ slot := by
  cases made with
  | aggregate found => exact slot_ne_of_aggregate distinct member found
  | @stream other otherMember =>
      intro same
      cases eq_of_slot distinct member otherMember same
      rw [Stream.slotType, if_pos isIndexed] at isEvent
      cases isEvent

/-- Whatever is made over a scope reads properties of single events only. -/
theorem Makes.readsSingle
    {admitted : Value → Prop}
    {written : String → List Expr → Prop}
    {node : Node}
    (distinct : scope.slots.Nodup)
    (made : scope.Makes admitted written node) :
    ∀ part ∈ node.parts, part.ReadsSingle scope := by
  have ofAll : ∀ {nodes : List Node},
      (∀ node ∈ nodes, ∀ part ∈ node.parts, part.ReadsSingle scope) →
        ∀ part ∈ Node.partsOfAll nodes, part.ReadsSingle scope := by
    intro nodes each part member
    obtain ⟨node, isNode, isPart⟩ := Node.mem_partsOfAll.mp member
    exact each node isNode part isPart
  induction made with
  | literal | stream | row | aggregate => exact List.forall_mem_singleton.mpr trivial
  | streamProperty member single _ _ =>
      refine List.forall_mem_singleton.mpr fun other otherMember isIndexed same => ?_
      rw [eq_of_slot distinct otherMember member same, single] at isIndexed
      cases isIndexed
  | slotProperty receiver _ _ =>
      exact List.forall_mem_singleton.mpr fun _ => single_of_makes_slot distinct receiver rfl
  | property _ typed _ _ receiver =>
      refine List.forall_mem_cons.mpr ⟨fun element isArray => ?_, receiver⟩
      rw [isArray] at typed
      rcases typed with isEvent | isObject
      · cases isEvent
      · cases isObject
  | entry _ typed receiver =>
      refine List.forall_mem_cons.mpr ⟨fun element isArray => ?_, receiver⟩
      cases typed.symm.trans isArray
  | unknownProperty _ typed receiver =>
      refine List.forall_mem_cons.mpr ⟨fun element isArray => ?_, receiver⟩
      rw [isArray] at typed
      rcases typed with isEvent | isDynamic
      · cases isEvent
      · cases isDynamic
  | item _ _ receiver | unknownItem _ _ receiver =>
      exact List.forall_mem_cons.mpr ⟨trivial, receiver⟩
  | not _ _ operand | neg _ _ operand => exact List.forall_mem_cons.mpr ⟨trivial, operand⟩
  | binary _ _ _ first second =>
      exact List.forall_mem_cons.mpr ⟨trivial, List.forall_mem_append.mpr ⟨first, second⟩⟩
  | builtin _ _ _ receiver arguments =>
      exact List.forall_mem_cons.mpr
        ⟨trivial, List.forall_mem_append.mpr ⟨receiver, ofAll arguments⟩⟩
  | method _ _ _ _ _ _ _ receiver arguments =>
      exact List.forall_mem_cons.mpr
        ⟨trivial, List.forall_mem_append.mpr ⟨receiver, ofAll arguments⟩⟩
  | function _ _ _ _ _ arguments => exact List.forall_mem_cons.mpr ⟨trivial, ofAll arguments⟩

/-- A stream is found by its name when all names are different. -/
theorem findStream_eq
    (distinct : (scope.streams.map Stream.name).Nodup)
    {stream : Stream}
    (member : stream ∈ scope.streams) :
    scope.findStream stream.name = some stream := by
  rw [findStream]
  rcases found : scope.streams.find? (fun other => other.name == stream.name) with _ | other
  · exact absurd (beq_self_eq_true _) (List.find?_eq_none.mp found stream member)
  · have named : other.name = stream.name := by simpa using List.find?_some found
    rw [found, List.inj_on_of_nodup_map distinct (List.mem_of_find?_eq_some found) member named]

/-- A whole indexed stream has no properties. -/
theorem bindProperty_of_indexed
    {stream : Stream}
    (isIndexed : stream.indexed = true)
    (property context : String) :
    scope.bindProperty (.slot stream.slot stream.slotType) property context =
      .error (.ambiguousIndexedProperty context property) := by
  have isSequence : stream.slotType = .array (.event stream.eventType) := if_pos isIndexed
  rw [isSequence]
  rfl

/-- A chain that asks a whole indexed stream for a property is refused at that property. -/
theorem bind_property_of_indexed
    (distinct : (scope.streams.map Stream.name).Nodup)
    {stream : Stream}
    (member : stream ∈ scope.streams)
    (isIndexed : stream.indexed = true)
    (property : String)
    (index : Option Nat)
    (rest : List (Segment Expr)) :
    scope.bind (.chain (.property stream.name none :: .property property index :: rest)) =
      .error (.ambiguousIndexedProperty stream.name property) := by
  have written : Expr.segmentText (.property stream.name none) = stream.name :=
    String.append_empty
  have started : ∀ later,
      scope.bindRoot ⟨.property stream.name none, .ok []⟩ later =
        .ok ⟨.slot stream.slot stream.slotType, some stream.slot, stream.name, later⟩ := by
    intro later
    rw [bindRoot]
    simp only [Segment.isCall, Segment.name, findStream_eq distinct member]
    simp only [Segment.index?, Node.pick, BoundSegment.text, written]
    rfl
  have asked : scope.bindSegment (.slot stream.slot stream.slotType)
      ⟨.property property index, .ok []⟩ (some stream.slot) stream.name =
        .error (.ambiguousIndexedProperty stream.name property) := by
    rw [bindSegment]
    simp only [Segment.isCall, Segment.name, bindProperty_of_indexed isIndexed]
    rfl
  rw [bind, bindSegments, bindSegments, bindSegmentArguments, bindSegmentArguments, bindChain,
    started]
  change scope.bindRest (some stream.slot) (.slot stream.slot stream.slotType) stream.name
    (⟨.property property index, .ok []⟩ :: scope.bindSegments rest) = _
  rw [bindRest, asked]
  rfl

/--
A bound expression reads properties neither of the slot of an indexed stream nor of a collection, in
no part of it.  A chain that asks a whole indexed stream for a property is refused.
-/
theorem sequences_never_read
    (distinct : scope.slots.Nodup)
    (distinctNames : (scope.streams.map Stream.name).Nodup) :
    (∀ expr node, scope.bind expr = .ok node → ∀ part ∈ node.parts, part.ReadsSingle scope) ∧
      ∀ stream ∈ scope.streams, stream.indexed = true →
        ∀ property index rest,
          scope.bind (.chain (.property stream.name none :: .property property index :: rest)) =
            .error (.ambiguousIndexedProperty stream.name property) := by
  refine ⟨fun expr node bound => ?_, fun stream member isIndexed =>
    bind_property_of_indexed distinctNames member isIndexed⟩
  have made : scope.Yields (fun _ => True) node := yields_bind expr (fun _ _ => trivial) bound
  exact made.readsSingle distinct

/-- Levels that were measured. -/
def levelShape : Shape := ⟨"Level", true, [("height", ⟨.int, none⟩)], []⟩

/-- All levels of a day, the level of now, to which names without a stream belong, and a count. -/
def levelScope : Scope :=
  ⟨Schema.empty.addShape levelShape, [⟨"day", "Level", 0, true⟩, ⟨"now", "Level", 1, false⟩],
    some 1, [("count(*)", 2, .int)]⟩

/-- Whether the first level of the day was lower than the level of now. -/
def roseSinceFirst : Expr :=
  .binary .lt (.chain [.property "day" (some 0), .property "height" none]) (.ident "height")

/-- The question bound: an item of the day is read, and the slot of now. -/
def boundRoseSinceFirst : Node :=
  .binary .lt
    (.read (.item (.slot 0 (.array (.event "Level"))) 0 (.event "Level")) "height" none .int)
    (.access 1 "height" .int) .bool

theorem sequences_never_read_roseSinceFirst :
    levelScope.bind roseSinceFirst = .ok boundRoseSinceFirst ∧
      (∀ part ∈ boundRoseSinceFirst.parts, part.ReadsSingle levelScope) ∧
      levelScope.bind (.path ["day", "height"]) =
        .error (.ambiguousIndexedProperty "day" "height") := by
  obtain ⟨reads, refuses⟩ := sequences_never_read (by decide : levelScope.slots.Nodup) (by decide)
  have bound : levelScope.bind roseSinceFirst = .ok boundRoseSinceFirst := rfl
  exact ⟨bound, reads _ _ bound,
    refuses ⟨"day", "Level", 0, true⟩ List.mem_cons_self rfl "height" none []⟩

end Scope

end EventQuery
