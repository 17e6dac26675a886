import EventQuery.Binding.Member
import EventQuery.Binding.Typing

namespace EventQuery

/-!
# Binding of expressions

An expression is bound over a scope from the inside out.  The first segment of a chain decides what
the chain starts from; every further segment is a member of the result so far.
-/

/-- The bound beginning of a chain. -/
structure ChainStart where
  node : Node
  /-- The slot of the stream that the chain starts from. -/
  origin : Option Nat
  /-- The written form of the segments used so far. -/
  text : String
  rest : List BoundSegment

namespace Scope

/-- A property of the events of a stream, named without the stream. -/
def bindStreamProperty (scope : Scope) (stream : Stream) (name : String) :
    Except BindingError Node :=
  if stream.indexed then .error (.ambiguousIndexedProperty stream.name name)
  else
    match (scope.shapeOf stream).bind fun shape => shape.property? name with
    | some property => .ok (.access stream.slot name property.type)
    | none => .error (.noSuchMember name 0 stream.eventType "")

/-- A call at the start of a chain: an aggregation result, or a method of the default stream. -/
def bindRootCall (scope : Scope) (root : BoundSegment) (rest : List BoundSegment) :
    Except BindingError ChainStart := do
  let segment := root.segment
  match scope.aggregate? (Expr.aggregateText segment) with
  | some (slot, type) =>
      let node ← (Node.slot slot type).pick segment.index? segment.name
      return ⟨node, none, root.text, rest⟩
  | none =>
      match scope.defaultStream with
      | some stream =>
          let receiver := Node.slot stream.slot stream.slotType
          let node ← scope.bindSegment receiver root (some stream.slot) stream.name
          return ⟨node, some stream.slot, root.text, rest⟩
      | none => throw (.noSuchMember segment.name segment.arity "statement" "")

/-- A function or constant of a namespace. -/
def bindStatic (scope : Scope) (space : Namespace) (member : BoundSegment) :
    Except BindingError Node := do
  let name := member.segment.name
  if member.segment.isCall then
    let arguments ← member.arguments
    let origin := scope.defaultStream.map Stream.slot
    let (function, nodes) ← scope.chooseOverload space.name name (space.functionsNamed name)
      Function.parameters space.memberNames origin arguments
    let signature : MethodSignature := ⟨space.name, name, function.parameters⟩
    return .function ⟨signature, function.invoke⟩ nodes function.returns
  else
    match space.constant? name with
    | some value => return .literal value
    | none =>
        throw (.noSuchMember name 0 space.name (Suggestion.hint name space.memberNames))

/-- A chain that starts with the name of a namespace: its second segment is the member. -/
def bindRootNamespace (scope : Scope) (space : Namespace) (root : BoundSegment)
    (rest : List BoundSegment) : Except BindingError ChainStart := do
  match rest with
  | [] => throw (.noSuchMember root.segment.name 0 space.name "")
  | member :: others =>
      let bound ← scope.bindStatic space member
      let node ← bound.pick member.segment.index? root.segment.name
      return ⟨node, none, root.text ++ "." ++ member.text, others⟩

/-- A property of a stream at the start of a chain. -/
def startAtProperty (scope : Scope) (stream : Stream) (root : BoundSegment)
    (rest : List BoundSegment) : Except BindingError ChainStart := do
  let property ← scope.bindStreamProperty stream root.segment.name
  let node ← property.pick root.segment.index? root.segment.name
  return ⟨node, some stream.slot, root.text, rest⟩

/-- The error for a name that means nothing at the start of a chain. -/
def unknownRoot (scope : Scope) (name : String) : BindingError :=
  .unknownStream name (Suggestion.hint name scope.rootNames)

/--
A property at the start of a chain without a stream.  It belongs to the default stream, or without
one to the only stream that declares it.
-/
def bindRootProperty (scope : Scope) (root : BoundSegment) (rest : List BoundSegment) :
    Except BindingError ChainStart :=
  let name := root.segment.name
  match scope.defaultStream with
  | some stream =>
      if scope.declares name stream then scope.startAtProperty stream root rest
      else if rest.isEmpty then
        .error (.noSuchMember name 0 stream.eventType (Suggestion.hint name scope.rootNames))
      else .error (scope.unknownRoot name)
  | none =>
      match scope.streams.filter (scope.declares name) with
      | [] => .error (scope.unknownRoot name)
      | [stream] => scope.startAtProperty stream root rest
      | streams => .error (.ambiguousProperty name (streams.map Stream.name))

/-- What a chain starts from: a stream, a namespace or a property, in this order, or a call. -/
def bindRoot (scope : Scope) (root : BoundSegment) (rest : List BoundSegment) :
    Except BindingError ChainStart :=
  let name := root.segment.name
  if root.segment.isCall then scope.bindRootCall root rest
  else
    match scope.findStream name with
    | some stream => do
        let node ← (Node.slot stream.slot stream.slotType).pick root.segment.index? name
        return ⟨node, some stream.slot, root.text, rest⟩
    | none =>
        match scope.schema.namespace? name with
        | some space => scope.bindRootNamespace space root rest
        | none => scope.bindRootProperty root rest

/-- The remaining segments of a chain, each a member of the result before it. -/
def bindRest (scope : Scope) (origin : Option Nat) :
    Node → String → List BoundSegment → Except BindingError Node
  | node, _, [] => .ok node
  | node, context, bound :: rest => do
      let next ← scope.bindSegment node bound origin context
      scope.bindRest origin next (context ++ "." ++ bound.text) rest

/-- A chain whose arguments have been bound. -/
def bindChain (scope : Scope) : List BoundSegment → Except BindingError Node
  | [] => .error (.unknownStream "" "")
  | root :: rest => do
      let start ← scope.bindRoot root rest
      scope.bindRest start.origin start.node start.text start.rest

/-- A negated truth value. -/
def bindNot (context : String) (operand : Node) : Except BindingError Node :=
  if operand.type.isBoolean then .ok (.not operand)
  else .error (.mismatch context .bool operand.type)

/-- A negated number; the type of a negated null is unknown. -/
def bindNeg (context : String) (operand : Node) : Except BindingError Node :=
  if operand.type.isNumberLike then
    .ok (.neg operand (if operand.type = .null then .unknown else operand.type))
  else .error (.mismatch context .float operand.type)

mutual

/-- An expression bound over a scope. -/
def bind (scope : Scope) : Expr → Except BindingError Node
  | .literal value => .ok (.literal value)
  | .wildcard => scope.bindWildcard .anyEvent none
  | .chain segments => scope.bindChain (bindSegments scope segments)
  | .binary op left right => do
      let first ← bind scope left
      let second ← bind scope right
      let context := "'" ++ left.text ++ " " ++ op.symbol ++ " " ++ right.text ++ "'"
      let type ← op.resultType context first.type second.type
      return .binary op first second type
  | .not operand => do
      let node ← bind scope operand
      bindNot ("'not " ++ operand.text ++ "'") node
  | .neg operand => do
      let node ← bind scope operand
      bindNeg ("'-" ++ operand.text ++ "'") node

/-- The segments of a chain with their arguments bound; a failed one counts only when it is used. -/
def bindSegments (scope : Scope) : List (Segment Expr) → List BoundSegment
  | [] => []
  | segment :: rest => bindSegmentArguments scope segment :: bindSegments scope rest

/-- One segment of a chain with its arguments bound. -/
def bindSegmentArguments (scope : Scope) : Segment Expr → BoundSegment
  | .property name index => ⟨.property name index, .ok []⟩
  | .call name arguments index => ⟨.call name arguments index, bindArguments scope arguments⟩

/-- The arguments of a call, bound from left to right. -/
def bindArguments (scope : Scope) : List Expr → Except BindingError (List BoundArgument)
  | [] => .ok []
  | .wildcard :: rest => do
      let arguments ← bindArguments scope rest
      return .wildcard :: arguments
  | argument :: rest => do
      let node ← bind scope argument
      let arguments ← bindArguments scope rest
      return .node node :: arguments

end

end Scope

end EventQuery
