import EventQuery.Pattern.Tag

namespace EventQuery

/-!
# Compiled patterns

A compiled pattern is the list of its operators and leaves in written order, an operator before its
operands, together with its tags.  The number of an operator is its place in the list, and its
operands are known by their numbers.  Predicates and guards are bound: they see all tags, each as it
looks from inside the same repetitions, and a predicate also sees the event under test, at the slot
behind those of the tags.
-/

/-- An operator or leaf of a compiled pattern. -/
inductive PatternNode where
  | filter (eventType : String) (slot : Option Nat) (predicate : Option Node)
  | every (child : Nat)
  | sequence (left : Nat) (right : Nat)
  | alternation (children : List Nat)
  | conjunction (children : List Nat)
  /-- The inner slots are those of the tags declared inside the repetition. -/
  | repetition (child : Nat) (least : Nat) (most : Option Nat) (innerSlots : List Nat)
  | negation (child : Nat)
  /-- Over an absence, time running out is success. -/
  | within (child : Nat) (duration : Nat) (absence : Bool)
  | guarded (child : Nat) (guard : Node)
  | timer (duration : Nat)

/-- A pattern ready to be matched. -/
structure CompiledPattern where
  nodes : List PatternNode
  tags : List Tag

namespace PatternNode

/-- The numbers of the operands. -/
def children : PatternNode → List Nat
  | filter _ _ _ => []
  | every child => [child]
  | sequence left right => [left, right]
  | alternation operands => operands
  | conjunction operands => operands
  | repetition child _ _ _ => [child]
  | negation child => [child]
  | within child _ _ => [child]
  | guarded child _ => [child]
  | timer _ => []

/-- Filters and timers have no operands and wait for something to happen. -/
def isLeaf : PatternNode → Bool
  | filter _ _ _ => true
  | timer _ => true
  | _ => false

end PatternNode

namespace CompiledPattern

/-- The longest time that is told apart from longer ones. -/
def longestDuration : Nat := Int64.maxValue.toInt.toNat

/-- A predicate or guard, which is a condition. -/
def bindCondition (scope : Scope) (expr : Expr) : Except BindingError Node :=
  scope.bindCondition "pattern expression" expr

/-- The scope of a guard: all tags. -/
def guardScope (schema : Schema) (tags : List Tag) (enclosing : List Nat) : Scope :=
  tags.foldl (fun scope tag => scope.addStream (tag.streamFrom enclosing)) (.ofSchema schema)

/--
The scope of the predicate of a filter: the tags other than its own, and the event under test, which
names without a tag belong to.
-/
def predicateScope (schema : Schema) (tags : List Tag) (enclosing : List Nat)
    (spec : FilterSpec) : Scope :=
  let others := tags.filter fun tag => spec.tag != some tag.name
  let tested : Stream := ⟨spec.tag.getD "", spec.eventType, tags.length, false⟩
  ((guardScope schema others enclosing).addStream tested).withDefault tags.length

/-- The slots of the tags declared inside a repetition. -/
def innerSlots (tags : List Tag) (repetition : Nat) : List Nat :=
  (tags.filter fun tag => tag.repetitions.contains repetition).map Tag.slot

/-- A filter, with its predicate bound. -/
def compileFilter (schema : Schema) (tags : List Tag) (enclosing : List Nat)
    (spec : FilterSpec) : Except BindingError PatternNode := do
  let slot := (spec.tag.bind (Tag.find? tags)).map Tag.slot
  match spec.predicate with
  | none => return .filter spec.eventType slot none
  | some expr =>
      let predicate ← bindCondition (predicateScope schema tags enclosing spec) expr
      return .filter spec.eventType slot (some predicate)

/-- The bounds of a repetition ask for at least one round and for no more than they allow. -/
def checkBounds (least : Nat) (most : Option Nat) : Except BindingError Unit := do
  if least = 0 then throw (.invalidPattern .emptyRepetition)
  match most with
  | none => return ()
  | some bound =>
      if bound < least then throw (.invalidPattern (.invertedBounds least bound))

/-- An operator over any number of operands needs one. -/
def checkOperands (operator : String) (operands : List PatternExpr) : Except BindingError Unit := do
  if operands.isEmpty then throw (.invalidPattern (.noOperands operator))

/-- The nodes of a pattern while it is compiled.  A number is held open until its node is known. -/
abbrev NodeTable := List (Option PatternNode)

/-- The number that was held open behind some nodes, and the table with the node of that number. -/
def fill (before after : NodeTable) (node : PatternNode) : Nat × NodeTable :=
  (before.length, after.set before.length (some node))

mutual

/--
Compile a pattern inside the repetitions around it.  It takes the next number of the table, which is
held open until its operands are compiled; they take the numbers behind it.
-/
def compileInto (schema : Schema) (tags : List Tag) (enclosing : List Nat) (table : NodeTable) :
    PatternExpr → Except BindingError (Nat × NodeTable)
  | .filter spec => do
      let node ← compileFilter schema tags enclosing spec
      return fill table (table ++ [none]) node
  | .every child => do
      let (operand, after) ← compileInto schema tags enclosing (table ++ [none]) child
      return fill table after (.every operand)
  | .sequence left right => do
      let (first, between) ← compileInto schema tags enclosing (table ++ [none]) left
      let (second, after) ← compileInto schema tags enclosing between right
      return fill table after (.sequence first second)
  | .alternation children => do
      checkOperands "or" children
      let (operands, after) ← compileAllInto schema tags enclosing (table ++ [none]) children
      return fill table after (.alternation operands)
  | .conjunction children => do
      checkOperands "and" children
      let (operands, after) ← compileAllInto schema tags enclosing (table ++ [none]) children
      return fill table after (.conjunction operands)
  | .repetition child least most => do
      checkBounds least most
      let (operand, after) ←
        compileInto schema tags (enclosing ++ [table.length]) (table ++ [none]) child
      return fill table after (.repetition operand least most (innerSlots tags table.length))
  | .negation child => do
      let (operand, after) ← compileInto schema tags enclosing (table ++ [none]) child
      return fill table after (.negation operand)
  | .within child duration => do
      let (operand, after) ← compileInto schema tags enclosing (table ++ [none]) child
      return fill table after
        (.within operand (min duration longestDuration) child.isNegation)
  | .guarded child guard => do
      let bound ← bindCondition (guardScope schema tags enclosing) guard
      let (operand, after) ← compileInto schema tags enclosing (table ++ [none]) child
      return fill table after (.guarded operand bound)
  | .timer duration =>
      .ok (fill table (table ++ [none]) (.timer (min duration longestDuration)))

/-- Compile several patterns one after another. -/
def compileAllInto (schema : Schema) (tags : List Tag) (enclosing : List Nat)
    (table : NodeTable) : List PatternExpr → Except BindingError (List Nat × NodeTable)
  | [] => .ok ([], table)
  | child :: rest => do
      let (operand, between) ← compileInto schema tags enclosing table child
      let (operands, after) ← compileAllInto schema tags enclosing between rest
      return (operand :: operands, after)

end

/-- The node of a number, which must not be open any more. -/
def filled : Option PatternNode → Except BindingError PatternNode
  | some node => .ok node
  | none => .error (.invalidPattern .incompleteNode)

/-- Compile a pattern: its tags first, and then its nodes. -/
def compile (schema : Schema) (pattern : PatternExpr) : Except BindingError CompiledPattern := do
  let (tags, _) ← Tag.collect schema 0 [] [] pattern
  let (_, table) ← compileInto schema tags [] [] pattern
  let nodes ← table.mapM filled
  return ⟨nodes, tags⟩

/-- The number of the outermost operator. -/
def rootNumber : Nat := 0

/-- The number of slots of a match. -/
def width (pattern : CompiledPattern) : Nat := pattern.tags.length

/-- The streams of a finished match. -/
def streams (pattern : CompiledPattern) : List Stream := pattern.tags.map Tag.stream

end CompiledPattern

end EventQuery
