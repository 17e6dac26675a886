import EventQuery.Binding.Bind
import EventQuery.Proofs.Binding.Choice

namespace EventQuery

/-!
# What binding yields

There are only a few ways in which binding makes an expression from smaller bound ones, and each of
them checks something.  They are written down here as one relation, with what was checked, so that a
property of all bound expressions can be shown by induction on how they were made.  The relation
also says which literals and which written calls an expression was made from.
-/

/-- A step that depends on an earlier one succeeds when both do. -/
theorem bind_eq_ok_iff
    {Problem First Second : Type}
    {first : Except Problem First}
    {second : First → Except Problem Second}
    {result : Second} :
    first >>= second = .ok result ↔ ∃ middle, first = .ok middle ∧ second middle = .ok result := by
  cases first with
  | error problem => simp [bind, Except.bind]
  | ok middle => simp [bind, Except.bind]

namespace Scope

section Givens

variable (scope : Scope)

/-- The constant that a chain starts from, if its first two segments name one. -/
def startConstant? : List (Segment Expr) → Option Value
  | .property home _ :: .property name _ :: _ =>
      if (scope.findStream home).isSome then none
      else (scope.schema.namespace? home).bind fun space => space.constant? name
  | _ => none

mutual

/-- The values that an expression gives: its literals and the constants that chains start from. -/
def givens : Expr → List Value
  | .literal value => [value]
  | .wildcard => []
  | .chain segments => (scope.startConstant? segments).toList ++ givensOfSegments segments
  | .binary _ left right => givens left ++ givens right
  | .not operand => givens operand
  | .neg operand => givens operand

/-- The values that the arguments of the segments of a chain give. -/
def givensOfSegments : List (Segment Expr) → List Value
  | [] => []
  | segment :: rest => givensOfSegment segment ++ givensOfSegments rest

/-- The values that the arguments of a segment give. -/
def givensOfSegment : Segment Expr → List Value
  | .property _ _ => []
  | .call _ arguments _ => givensOfAll arguments

/-- The values that several expressions give. -/
def givensOfAll : List Expr → List Value
  | [] => []
  | argument :: rest => givens argument ++ givensOfAll rest

end

end Givens

end Scope

namespace Expr

mutual

/-- The calls that are written in an expression, by their names and arguments. -/
def calls : Expr → List (String × List Expr)
  | .literal _ => []
  | .wildcard => []
  | .chain segments => callsOfSegments segments
  | .binary _ left right => calls left ++ calls right
  | .not operand => calls operand
  | .neg operand => calls operand

/-- The calls that are written in the segments of a chain. -/
def callsOfSegments : List (Segment Expr) → List (String × List Expr)
  | [] => []
  | segment :: rest => callsOfSegment segment ++ callsOfSegments rest

/-- The call that a segment is, and those that are written in its arguments. -/
def callsOfSegment : Segment Expr → List (String × List Expr)
  | .property _ _ => []
  | .call name arguments _ => (name, arguments) :: callsOfAll arguments

/-- The calls that are written in several expressions. -/
def callsOfAll : List Expr → List (String × List Expr)
  | [] => []
  | argument :: rest => calls argument ++ callsOfAll rest

end

end Expr

namespace Scope

/-- The argument of a call that an expression is bound to before a method is chosen. -/
inductive Binds (scope : Scope) : Expr → BoundArgument → Prop
  | node {expr : Expr} {node : Node}
      (notWildcard : expr ≠ .wildcard)
      (bound : scope.bind expr = .ok node) :
      Binds scope expr (.node node)
  | wildcard : Binds scope .wildcard .wildcard

/--
What a call passes for its written arguments to the parameters of what it is bound to.  Only the
type of a written expression is compared with its parameter: the wildcard is the whole row for a
collection of events and some stream for an event, whatever events those are.
-/
inductive Passes (scope : Scope) : List Expr → List ValueType → List Node → Prop
  | nil : Passes scope [] [] []
  | given {expr : Expr} {parameter : ValueType} {node : Node} {expressions : List Expr}
      {parameters : List ValueType} {nodes : List Node}
      (notWildcard : expr ≠ .wildcard)
      (bound : scope.bind expr = .ok node)
      (accepted : parameter.accepts node.type = true)
      (rest : Passes scope expressions parameters nodes) :
      Passes scope (expr :: expressions) (parameter :: parameters) (node :: nodes)
  | row {element : ValueType} {expressions : List Expr} {parameters : List ValueType}
      {nodes : List Node}
      (isEvent : element.isEvent = true)
      (rest : Passes scope expressions parameters nodes) :
      Passes scope (.wildcard :: expressions) (.array element :: parameters)
        (.row scope.streamSlots :: nodes)
  | event {parameter : ValueType} {stream : Stream} {expressions : List Expr}
      {parameters : List ValueType} {nodes : List Node}
      (isEvent : parameter.isEvent = true)
      (member : stream ∈ scope.streams)
      (rest : Passes scope expressions parameters nodes) :
      Passes scope (.wildcard :: expressions) (parameter :: parameters)
        (.slot stream.slot stream.slotType :: nodes)

/--
The ways in which an expression over a scope is made, with what is checked in each.  The literals
that are made are among the values that are admitted, and calls of declared methods and functions
are made from calls that are written.
-/
inductive Makes (scope : Scope) (admitted : Value → Prop) (written : String → List Expr → Prop) :
    Node → Prop
  | literal {value : Value}
      (isAdmitted : admitted value) :
      Makes scope admitted written (.literal value)
  | stream {stream : Stream}
      (member : stream ∈ scope.streams) :
      Makes scope admitted written (.slot stream.slot stream.slotType)
  | row : Makes scope admitted written (.row scope.streamSlots)
  | aggregate {call : String} {slot : Nat} {type : ValueType}
      (found : scope.aggregate? call = some (slot, type)) :
      Makes scope admitted written (.slot slot type)
  | streamProperty {stream : Stream} {shape : Shape} {name : String} {property : Property}
      (member : stream ∈ scope.streams)
      (single : stream.indexed = false)
      (shaped : scope.shapeOf stream = some shape)
      (declared : shape.property? name = some property) :
      Makes scope admitted written (.access stream.slot name property.type)
  | slotProperty {index : Nat} {shapeName name : String} {shape : Shape} {property : Property}
      (receiver : Makes scope admitted written (.slot index (.event shapeName)))
      (shaped : scope.schema.shape? shapeName = some shape)
      (declared : shape.property? name = some property) :
      Makes scope admitted written (.access index name property.type)
  | property {receiver : Node} {shapeName name : String} {shape : Shape} {property : Property}
      (made : Makes scope admitted written receiver)
      (typed : receiver.type = .event shapeName ∨ receiver.type = .object shapeName)
      (shaped : scope.schema.shape? shapeName = some shape)
      (declared : shape.property? name = some property) :
      Makes scope admitted written
        (.read receiver name (property.getter.map fun read => ⟨shapeName, read⟩) property.type)
  | entry {receiver : Node} {name : String} {key entry : ValueType}
      (made : Makes scope admitted written receiver)
      (typed : receiver.type = .map key entry) :
      Makes scope admitted written (.read receiver name none entry)
  | unknownProperty {receiver : Node} {name : String}
      (made : Makes scope admitted written receiver)
      (typed : receiver.type = .anyEvent ∨ receiver.type.isDynamic = true) :
      Makes scope admitted written (.read receiver name none .unknown)
  | item {receiver : Node} {position : Nat} {element : ValueType}
      (made : Makes scope admitted written receiver)
      (typed : receiver.type = .array element) :
      Makes scope admitted written (.item receiver position element)
  | unknownItem {receiver : Node} {position : Nat}
      (made : Makes scope admitted written receiver)
      (typed : receiver.type.isDynamic = true) :
      Makes scope admitted written (.item receiver position .unknown)
  | builtin {receiver : Node} {found : BuiltinSignature} {name : String} {arity : Nat}
      {nodes : List Node}
      (made : Makes scope admitted written receiver)
      (known : Builtin.lookup receiver.type name arity = some found)
      (arguments : ∀ node ∈ nodes, Makes scope admitted written node) :
      Makes scope admitted written (.builtin receiver found.method nodes found.returns)
  | method {receiver : Node} {shapeName : String} {shape : Shape} {method : Method}
      {nodes : List Node} {expressions : List Expr}
      (made : Makes scope admitted written receiver)
      (typed : receiver.type.shapeName? = some shapeName)
      (shaped : scope.schema.shape? shapeName = some shape)
      (declared : method ∈ shape.methods)
      (isWritten : written method.name expressions)
      (passed : scope.Passes expressions method.parameters nodes)
      (arguments : ∀ node ∈ nodes, Makes scope admitted written node) :
      Makes scope admitted written
        (.method receiver ⟨⟨shape.name, method.name, method.parameters⟩, method.invoke⟩ nodes
          method.returns)
  | function {home name : String} {space : Namespace} {function : Function} {nodes : List Node}
      {expressions : List Expr}
      (spaced : scope.schema.namespace? home = some space)
      (declared : function ∈ space.functions)
      (isWritten : written name expressions)
      (passed : scope.Passes expressions function.parameters nodes)
      (arguments : ∀ node ∈ nodes, Makes scope admitted written node) :
      Makes scope admitted written
        (.function ⟨⟨space.name, name, function.parameters⟩, function.invoke⟩ nodes
          function.returns)
  | binary {op : BinaryOp} {left right : Node} {context : String} {type : ValueType}
      (first : Makes scope admitted written left)
      (second : Makes scope admitted written right)
      (typed : op.resultType context left.type right.type = .ok type) :
      Makes scope admitted written (.binary op left right type)
  | not {operand : Node}
      (made : Makes scope admitted written operand)
      (typed : operand.type.isBoolean = true) :
      Makes scope admitted written (.not operand)
  | neg {operand : Node}
      (made : Makes scope admitted written operand)
      (typed : operand.type.isNumberLike = true) :
      Makes scope admitted written
        (.neg operand (if operand.type = .null then .unknown else operand.type))

/-- The expressions over a scope that are made from any calls. -/
abbrev Yields (scope : Scope) (admitted : Value → Prop) : Node → Prop :=
  scope.Makes admitted fun _ _ => True

section Members

variable {scope : Scope} {admitted : Value → Prop} {written : String → List Expr → Prop}

/-- The nodes among arguments that are bound before a method is chosen. -/
def ArgumentsMade (scope : Scope) (admitted : Value → Prop) (written : String → List Expr → Prop)
    (arguments : List BoundArgument) : Prop :=
  ∀ node, .node node ∈ arguments → scope.Makes admitted written node

/-- A segment with its arguments, when they can be bound. -/
structure SegmentMade (scope : Scope) (admitted : Value → Prop)
    (written : String → List Expr → Prop) (bound : BoundSegment) : Prop where
  isWritten : bound.segment.isCall = true → written bound.segment.name bound.segment.arguments
  arguments :
    ∀ {arguments}, bound.arguments = .ok arguments → ArgumentsMade scope admitted written arguments
  binds :
    ∀ {arguments}, bound.arguments = .ok arguments →
      List.Forall₂ scope.Binds bound.segment.arguments arguments

theorem mem_of_atSlot
    {slot : Nat}
    {stream : Stream}
    (found : scope.atSlot slot = some stream) :
    stream ∈ scope.streams :=
  List.mem_of_find?_eq_some found

theorem mem_of_defaultStream
    {stream : Stream}
    (found : scope.defaultStream = some stream) :
    stream ∈ scope.streams := by
  rw [defaultStream] at found
  split at found
  next => exact mem_of_atSlot found
  next only =>
      cases found
      rw [only]
      exact List.mem_singleton_self _
  next => cases found

/-- The wildcard is the whole row for a collection of events, and otherwise a stream. -/
theorem bindWildcard_eq_ok
    {parameter : ValueType}
    {origin : Option Nat}
    {node : Node}
    (outcome : scope.bindWildcard parameter origin = .ok node) :
    (∃ element, parameter = .array element ∧ element.isEvent = true ∧
        node = .row scope.streamSlots) ∨
      ((parameter.element?.map ValueType.isEvent).getD false = false ∧
        ∃ stream ∈ scope.streams, node = .slot stream.slot stream.slotType) := by
  rw [bindWildcard] at outcome
  split at outcome
  next isCollection =>
      cases outcome
      cases parameter with
      | array element => exact .inl ⟨element, rfl, isCollection, rfl⟩
      | _ => cases isCollection
  next notCollection =>
      split at outcome
      next stream found =>
          cases outcome
          refine .inr ⟨Bool.eq_false_iff.mpr notCollection, stream, ?_, rfl⟩
          rcases chosen : origin.bind scope.atSlot with _ | other
          · rw [chosen] at found
            rcases default : scope.defaultStream with _ | other
            · rw [default] at found
              exact List.mem_of_head? found
            · rw [default] at found
              cases found
              exact mem_of_defaultStream default
          · rw [chosen] at found
            cases found
            obtain ⟨slot, _, atSlot⟩ := Option.bind_eq_some_iff.mp chosen
            exact mem_of_atSlot atSlot
      next => cases outcome

theorem makes_bindWildcard
    {parameter : ValueType}
    {origin : Option Nat}
    {node : Node}
    (outcome : scope.bindWildcard parameter origin = .ok node) :
    scope.Makes admitted written node := by
  rcases bindWildcard_eq_ok outcome with ⟨_, _, _, rfl⟩ | ⟨_, stream, member, rfl⟩
  · exact .row
  · exact .stream member

theorem makes_finishArgument
    {origin : Option Nat}
    {parameter : ValueType}
    {argument : BoundArgument}
    {node : Node}
    (yielded : ArgumentsMade scope admitted written [argument])
    (outcome : scope.finishArgument origin parameter argument = .ok node) :
    scope.Makes admitted written node := by
  cases argument with
  | node given =>
      cases outcome
      exact yielded _ (List.mem_singleton_self _)
  | wildcard => exact makes_bindWildcard outcome

theorem ArgumentsMade.head
    {argument : BoundArgument}
    {arguments : List BoundArgument}
    (yielded : ArgumentsMade scope admitted written (argument :: arguments)) :
    ArgumentsMade scope admitted written [argument] := by
  intro node member
  rw [List.mem_singleton] at member
  exact yielded node (member ▸ List.mem_cons_self)

theorem ArgumentsMade.tail
    {argument : BoundArgument}
    {arguments : List BoundArgument}
    (yielded : ArgumentsMade scope admitted written (argument :: arguments)) :
    ArgumentsMade scope admitted written arguments :=
  fun node member => yielded node (List.mem_cons_of_mem _ member)

theorem makes_finishArguments
    {origin : Option Nat}
    {parameters : List ValueType}
    {arguments : List BoundArgument}
    {nodes : List Node}
    (yielded : ArgumentsMade scope admitted written arguments)
    (outcome : scope.finishArguments origin parameters arguments = .ok nodes) :
    ∀ node ∈ nodes, scope.Makes admitted written node := by
  induction parameters generalizing arguments nodes with
  | nil =>
      cases outcome
      exact fun _ member => nomatch member
  | cons parameter parameters inductionHypothesis =>
      cases arguments with
      | nil =>
          cases outcome
          exact fun _ member => nomatch member
      | cons argument arguments =>
          obtain ⟨first, isFirst, outcome⟩ := bind_eq_ok_iff.mp outcome
          obtain ⟨others, areOthers, outcome⟩ := bind_eq_ok_iff.mp outcome
          cases outcome
          exact List.forall_mem_cons.mpr ⟨makes_finishArgument yielded.head isFirst,
            inductionHypothesis yielded.tail areOthers⟩

/-- A call passes its finished arguments to parameters that they fit. -/
theorem passes_finishArguments
    {origin : Option Nat}
    {expressions : List Expr}
    {parameters : List ValueType}
    {arguments : List BoundArgument}
    {nodes : List Node}
    (binds : List.Forall₂ scope.Binds expressions arguments)
    (fitting :
      List.Forall₂ (fun parameter argument => argument.fits parameter = true) parameters
        (arguments.map BoundArgument.shape))
    (outcome : scope.finishArguments origin parameters arguments = .ok nodes) :
    scope.Passes expressions parameters nodes := by
  induction binds generalizing parameters nodes with
  | nil =>
      cases fitting
      cases outcome
      exact .nil
  | cons first _ inductionHypothesis =>
      cases fitting with
      | cons fits others =>
          obtain ⟨node, isNode, outcome⟩ := bind_eq_ok_iff.mp outcome
          obtain ⟨later, areLater, outcome⟩ := bind_eq_ok_iff.mp outcome
          cases outcome
          have rest := inductionHypothesis others areLater
          cases first with
          | node notWildcard bound =>
              cases isNode
              exact .given notWildcard bound fits rest
          | wildcard =>
              rcases bindWildcard_eq_ok isNode with
                ⟨element, rfl, isEvent, rfl⟩ | ⟨notCollection, stream, member, rfl⟩
              · exact .row isEvent rest
              · refine .event ?_ member rest
                have takesEvent := Bool.or_eq_true_iff.mp fits
                exact takesEvent.resolve_right (Bool.eq_false_iff.mp notCollection)

theorem makes_finishBuiltinArguments
    {origin : Option Nat}
    {name : String}
    {position : Nat}
    {parameters : List ValueType}
    {arguments : List BoundArgument}
    {nodes : List Node}
    (yielded : ArgumentsMade scope admitted written arguments)
    (outcome :
      scope.finishBuiltinArguments origin name position parameters arguments = .ok nodes) :
    ∀ node ∈ nodes, scope.Makes admitted written node := by
  induction parameters generalizing arguments nodes position with
  | nil =>
      cases outcome
      exact fun _ member => nomatch member
  | cons parameter parameters inductionHypothesis =>
      cases arguments with
      | nil =>
          cases outcome
          exact fun _ member => nomatch member
      | cons argument arguments =>
          obtain ⟨first, isFirst, outcome⟩ := bind_eq_ok_iff.mp outcome
          dsimp only at outcome
          split at outcome
          next => cases outcome
          next =>
              obtain ⟨others, areOthers, outcome⟩ := bind_eq_ok_iff.mp outcome
              cases outcome
              exact List.forall_mem_cons.mpr ⟨makes_finishArgument yielded.head isFirst,
                inductionHypothesis yielded.tail areOthers⟩

/--
The method that is chosen is one of the candidates.  The arguments fit its parameters and are
finished for them.
-/
theorem chooseOverload_eq_ok
    {Callee : Type}
    {owner member : String}
    {candidates : List Callee}
    {parametersOf : Callee → List ValueType}
    {names : List String}
    {origin : Option Nat}
    {arguments : List BoundArgument}
    {chosen : Callee × List Node}
    (outcome :
      scope.chooseOverload owner member candidates parametersOf names origin arguments =
        .ok chosen) :
    chosen.1 ∈ candidates ∧
      List.Forall₂ (fun parameter argument => argument.fits parameter = true)
        (parametersOf chosen.1) (arguments.map BoundArgument.shape) ∧
      scope.finishArguments origin (parametersOf chosen.1) arguments = .ok chosen.2 := by
  rw [chooseOverload] at outcome
  split at outcome
  next position isChosen =>
      split at outcome
      next callee found =>
          obtain ⟨nodes, finished, outcome⟩ := bind_eq_ok_iff.mp outcome
          cases outcome
          obtain ⟨parameters, atPosition, fitting⟩ := Overload.select_eq_unique isChosen
          rw [List.getElem?_map, found] at atPosition
          cases atPosition
          exact ⟨List.mem_of_getElem? found, fitting, finished⟩
      next => cases outcome
  next => cases outcome
  next => cases outcome
  next => cases outcome

theorem makes_pick
    {receiver node : Node}
    {index : Option Nat}
    {context : String}
    (made : scope.Makes admitted written receiver)
    (outcome : receiver.pick index context = .ok node) :
    scope.Makes admitted written node := by
  rw [Node.pick.eq_def] at outcome
  split at outcome
  next =>
      cases outcome
      exact made
  next =>
      split at outcome
      next typed =>
          cases outcome
          exact .item made typed
      next typed =>
          cases outcome
          exact .unknownItem made (by rw [typed]; rfl)
      next typed =>
          cases outcome
          exact .unknownItem made (by rw [typed]; rfl)
      next => cases outcome

theorem makes_bindBuiltin
    {receiver node : Node}
    {found : BuiltinSignature}
    {bound : BoundSegment}
    {arguments : List BoundArgument}
    {origin : Option Nat}
    {context name : String}
    {arity : Nat}
    (made : scope.Makes admitted written receiver)
    (known : Builtin.lookup receiver.type name arity = some found)
    (yielded : ArgumentsMade scope admitted written arguments)
    (outcome : scope.bindBuiltin receiver found bound arguments origin context = .ok node) :
    scope.Makes admitted written node := by
  rw [bindBuiltin] at outcome
  dsimp only at outcome
  split at outcome
  next => cases outcome
  next =>
      obtain ⟨nodes, finished, outcome⟩ := bind_eq_ok_iff.mp outcome
      cases outcome
      exact .builtin made known (makes_finishBuiltinArguments yielded finished)

theorem shape?_of_requireShape
    {name member : String}
    {type : ValueType}
    {arity : Nat}
    {shape : Shape}
    (outcome : scope.requireShape name type member arity = .ok shape) :
    scope.schema.shape? name = some shape := by
  rw [requireShape] at outcome
  split at outcome
  next found =>
      cases outcome
      exact found
  next => cases outcome

theorem makes_bindMethod
    {receiver node : Node}
    {bound : BoundSegment}
    {origin : Option Nat}
    {context : String}
    (made : scope.Makes admitted written receiver)
    (yielded : SegmentMade scope admitted written bound)
    (isCall : bound.segment.isCall = true)
    (outcome : scope.bindMethod receiver bound origin context = .ok node) :
    scope.Makes admitted written node := by
  obtain ⟨arguments, given, outcome⟩ := bind_eq_ok_iff.mp outcome
  have argumentsMade := yielded.arguments given
  split at outcome
  next found known => exact makes_bindBuiltin made known argumentsMade outcome
  next =>
      split at outcome
      next => cases outcome
      next shapeName typed =>
          obtain ⟨shape, required, outcome⟩ := bind_eq_ok_iff.mp outcome
          obtain ⟨⟨method, nodes⟩, chosen, outcome⟩ := bind_eq_ok_iff.mp outcome
          cases outcome
          obtain ⟨candidate, fitting, finished⟩ := chooseOverload_eq_ok chosen
          obtain ⟨declared, named⟩ := List.mem_filter.mp candidate
          refine .method made typed (shape?_of_requireShape required) declared ?_
            (passes_finishArguments (yielded.binds given) fitting finished)
            (makes_finishArguments argumentsMade finished)
          exact eq_of_beq named ▸ yielded.isWritten isCall

theorem makes_bindShapeProperty
    {receiver node : Node}
    {shapeName name : String}
    (made : scope.Makes admitted written receiver)
    (typed : receiver.type = .event shapeName ∨ receiver.type = .object shapeName)
    (outcome : scope.bindShapeProperty receiver shapeName name = .ok node) :
    scope.Makes admitted written node := by
  obtain ⟨shape, required, outcome⟩ := bind_eq_ok_iff.mp outcome
  have shaped := shape?_of_requireShape required
  split at outcome
  next => cases outcome
  next property declared =>
      split at outcome
      next index slotType other _ isEvent =>
          cases outcome
          have isShape : slotType = .event shapeName := by
            rcases typed with same | same
            · exact same
            · cases isEvent.symm.trans same
          exact .slotProperty (isShape ▸ made) shaped declared
      next =>
          cases outcome
          exact .property made typed shaped declared

theorem makes_bindProperty
    {receiver node : Node}
    {name context : String}
    (made : scope.Makes admitted written receiver)
    (outcome : scope.bindProperty receiver name context = .ok node) :
    scope.Makes admitted written node := by
  rw [bindProperty] at outcome
  split at outcome
  next shapeName typed => exact makes_bindShapeProperty made (.inl typed) outcome
  next shapeName typed => exact makes_bindShapeProperty made (.inr typed) outcome
  next typed =>
      cases outcome
      exact .entry made typed
  next typed =>
      cases outcome
      exact .unknownProperty made (.inl typed)
  next typed =>
      cases outcome
      exact .unknownProperty made (.inr (by rw [typed]; rfl))
  next typed =>
      cases outcome
      exact .unknownProperty made (.inr (by rw [typed]; rfl))
  next =>
      split at outcome <;> cases outcome
  next => cases outcome

theorem makes_bindSegment
    {receiver node : Node}
    {bound : BoundSegment}
    {origin : Option Nat}
    {context : String}
    (made : scope.Makes admitted written receiver)
    (yielded : SegmentMade scope admitted written bound)
    (outcome : scope.bindSegment receiver bound origin context = .ok node) :
    scope.Makes admitted written node := by
  rw [bindSegment] at outcome
  dsimp only at outcome
  split at outcome
  next isCall =>
      obtain ⟨member, isMember, picked⟩ := bind_eq_ok_iff.mp outcome
      exact makes_pick (makes_bindMethod made yielded isCall isMember) picked
  next =>
      obtain ⟨member, isMember, picked⟩ := bind_eq_ok_iff.mp outcome
      exact makes_pick (makes_bindProperty made isMember) picked

end Members

section Chains

variable {scope : Scope} {admitted : Value → Prop} {written : String → List Expr → Prop}
  {root : BoundSegment} {rest : List BoundSegment} {start : ChainStart}

/-- A chain starts from something made, and what is left of it are segments of the chain. -/
structure StartMade (scope : Scope) (admitted : Value → Prop)
    (written : String → List Expr → Prop) (rest : List BoundSegment) (start : ChainStart) :
    Prop where
  node : scope.Makes admitted written start.node
  rest : ∀ bound ∈ start.rest, bound ∈ rest

theorem makes_bindStreamProperty
    {stream : Stream}
    {name : String}
    {node : Node}
    (member : stream ∈ scope.streams)
    (outcome : scope.bindStreamProperty stream name = .ok node) :
    scope.Makes admitted written node := by
  rw [bindStreamProperty] at outcome
  split at outcome
  next => cases outcome
  next single =>
      split at outcome
      next property found =>
          cases outcome
          obtain ⟨shape, shaped, declared⟩ := Option.bind_eq_some_iff.mp found
          exact .streamProperty member (by simpa using single) shaped declared
      next => cases outcome

theorem startMade_bindRootCall
    (yielded : SegmentMade scope admitted written root)
    (outcome : scope.bindRootCall root rest = .ok start) :
    StartMade scope admitted written rest start := by
  rw [bindRootCall] at outcome
  split at outcome
  next found =>
      obtain ⟨node, picked, outcome⟩ := bind_eq_ok_iff.mp outcome
      cases outcome
      exact ⟨makes_pick (.aggregate found) picked, fun _ => id⟩
  next =>
      split at outcome
      next stream found =>
          obtain ⟨node, bound, outcome⟩ := bind_eq_ok_iff.mp outcome
          cases outcome
          exact ⟨makes_bindSegment (.stream (mem_of_defaultStream found)) yielded bound,
            fun _ => id⟩
      next => cases outcome

theorem makes_bindStatic
    {home : String}
    {space : Namespace}
    {node : Node}
    (spaced : scope.schema.namespace? home = some space)
    (constants :
      ∀ name index value, root.segment = .property name index →
        space.constant? name = some value → admitted value)
    (yielded : SegmentMade scope admitted written root)
    (outcome : scope.bindStatic space root = .ok node) :
    scope.Makes admitted written node := by
  rw [bindStatic] at outcome
  split at outcome
  next isCall =>
      obtain ⟨arguments, given, outcome⟩ := bind_eq_ok_iff.mp outcome
      obtain ⟨⟨function, nodes⟩, chosen, outcome⟩ := bind_eq_ok_iff.mp outcome
      cases outcome
      obtain ⟨candidate, fitting, finished⟩ := chooseOverload_eq_ok chosen
      exact .function spaced (List.mem_filter.mp candidate).1 (yielded.isWritten isCall)
        (passes_finishArguments (yielded.binds given) fitting finished)
        (makes_finishArguments (yielded.arguments given) finished)
  next notCall =>
      split at outcome
      next value declared =>
          cases outcome
          rcases isSegment : root.segment with ⟨name, index⟩ | ⟨name, arguments, index⟩
          · rw [isSegment] at declared
            exact .literal (constants name index value isSegment declared)
          · rw [isSegment] at notCall
            exact absurd rfl notCall
      next => cases outcome

theorem startMade_bindRootNamespace
    {home : String}
    {space : Namespace}
    (spaced : scope.schema.namespace? home = some space)
    (constants :
      ∀ name index others value, rest.map BoundSegment.segment = .property name index :: others →
        space.constant? name = some value → admitted value)
    (yielded : ∀ bound ∈ rest, SegmentMade scope admitted written bound)
    (outcome : scope.bindRootNamespace space root rest = .ok start) :
    StartMade scope admitted written rest start := by
  rw [bindRootNamespace.eq_def] at outcome
  split at outcome
  next => cases outcome
  next member others =>
      obtain ⟨bound, isBound, outcome⟩ := bind_eq_ok_iff.mp outcome
      obtain ⟨node, picked, outcome⟩ := bind_eq_ok_iff.mp outcome
      cases outcome
      have made := makes_bindStatic spaced
        (fun name index value isMember =>
          constants name index (others.map BoundSegment.segment) value (by rw [List.map, isMember]))
        (yielded member List.mem_cons_self) isBound
      exact ⟨makes_pick made picked, fun _ => List.mem_cons_of_mem _⟩

theorem startMade_startAtProperty
    {stream : Stream}
    (member : stream ∈ scope.streams)
    (outcome : scope.startAtProperty stream root rest = .ok start) :
    StartMade scope admitted written rest start := by
  obtain ⟨property, isProperty, outcome⟩ := bind_eq_ok_iff.mp outcome
  obtain ⟨node, picked, outcome⟩ := bind_eq_ok_iff.mp outcome
  cases outcome
  exact ⟨makes_pick (makes_bindStreamProperty member isProperty) picked, fun _ => id⟩

theorem startMade_bindRootProperty
    (outcome : scope.bindRootProperty root rest = .ok start) :
    StartMade scope admitted written rest start := by
  rw [bindRootProperty] at outcome
  split at outcome
  next stream found =>
      split at outcome
      next => exact startMade_startAtProperty (mem_of_defaultStream found) outcome
      next => split at outcome <;> cases outcome
  next =>
      split at outcome
      next => cases outcome
      next stream only =>
          refine startMade_startAtProperty ?_ outcome
          exact (List.mem_filter.mp (only ▸ List.mem_singleton_self stream)).1
      next => cases outcome

theorem startMade_bindRoot
    (constants :
      ∀ value, scope.startConstant? ((root :: rest).map BoundSegment.segment) = some value →
        admitted value)
    (yielded : ∀ bound ∈ root :: rest, SegmentMade scope admitted written bound)
    (outcome : scope.bindRoot root rest = .ok start) :
    StartMade scope admitted written rest start := by
  rw [bindRoot] at outcome
  split at outcome
  next => exact startMade_bindRootCall (yielded root List.mem_cons_self) outcome
  next notCall =>
      split at outcome
      next stream found =>
          obtain ⟨node, picked, outcome⟩ := bind_eq_ok_iff.mp outcome
          cases outcome
          exact ⟨makes_pick (.stream (List.mem_of_find?_eq_some found)) picked, fun _ => id⟩
      next unknown =>
          split at outcome
          next space spaced =>
              refine startMade_bindRootNamespace spaced ?_
                (fun bound member => yielded bound (List.mem_cons_of_mem _ member)) outcome
              intro name index others value isRest declared
              refine constants value ?_
              rcases isRoot : root.segment with ⟨home, atHome⟩ | ⟨home, arguments, atHome⟩
              · rw [isRoot] at unknown spaced
                have unknown : scope.findStream home = none := unknown
                have spaced : scope.schema.namespace? home = some space := spaced
                rw [List.map, isRest, isRoot, startConstant?, unknown, spaced]
                exact declared
              · rw [isRoot] at notCall
                exact absurd rfl notCall
          next => exact startMade_bindRootProperty outcome

theorem makes_bindRest
    {origin : Option Nat}
    {receiver node : Node}
    {context : String}
    (made : scope.Makes admitted written receiver)
    (yielded : ∀ bound ∈ rest, SegmentMade scope admitted written bound)
    (outcome : scope.bindRest origin receiver context rest = .ok node) :
    scope.Makes admitted written node := by
  induction rest generalizing receiver context with
  | nil =>
      cases outcome
      exact made
  | cons bound rest inductionHypothesis =>
      obtain ⟨next, isNext, outcome⟩ := bind_eq_ok_iff.mp outcome
      exact inductionHypothesis (makes_bindSegment made (yielded bound List.mem_cons_self) isNext)
        (fun other member => yielded other (List.mem_cons_of_mem _ member)) outcome

theorem makes_bindChain
    {segments : List BoundSegment}
    {node : Node}
    (constants :
      ∀ value, scope.startConstant? (segments.map BoundSegment.segment) = some value →
        admitted value)
    (yielded : ∀ bound ∈ segments, SegmentMade scope admitted written bound)
    (outcome : scope.bindChain segments = .ok node) :
    scope.Makes admitted written node := by
  cases segments with
  | nil => cases outcome
  | cons root rest =>
      obtain ⟨start, starting, outcome⟩ := bind_eq_ok_iff.mp outcome
      have startMade := startMade_bindRoot constants yielded starting
      exact makes_bindRest startMade.node
        (fun bound member =>
          yielded bound (List.mem_cons_of_mem _ (startMade.rest bound member)))
        outcome

end Chains

section Expressions

variable {scope : Scope} {admitted : Value → Prop} {written : String → List Expr → Prop}

/-- Binding the arguments of a chain leaves its segments as they are. -/
theorem segment_bindSegments
    (segments : List (Segment Expr)) :
    (scope.bindSegments segments).map BoundSegment.segment = segments := by
  induction segments with
  | nil =>
      rfl
  | cons segment rest inductionHypothesis =>
      rw [bindSegments, List.map, inductionHypothesis]
      cases segment <;> rfl

/-- The first argument of a call and the later ones are bound apart. -/
theorem bindArguments_cons_eq_ok
    {expr : Expr}
    {rest : List Expr}
    {arguments : List BoundArgument}
    (outcome : scope.bindArguments (expr :: rest) = .ok arguments) :
    ∃ argument later, scope.Binds expr argument ∧ scope.bindArguments rest = .ok later ∧
      arguments = argument :: later := by
  rw [bindArguments.eq_def] at outcome
  split at outcome
  next empty => cases empty
  next others isList =>
      cases isList
      obtain ⟨later, areLater, outcome⟩ := bind_eq_ok_iff.mp outcome
      cases outcome
      exact ⟨.wildcard, later, .wildcard, areLater, rfl⟩
  next first others notWildcard isList =>
      cases isList
      obtain ⟨given, isGiven, outcome⟩ := bind_eq_ok_iff.mp outcome
      obtain ⟨later, areLater, outcome⟩ := bind_eq_ok_iff.mp outcome
      cases outcome
      exact ⟨.node given, later, .node notWildcard isGiven, areLater, rfl⟩

/-- Each argument of a call is what its expression is bound to. -/
theorem binds_bindArguments
    {expressions : List Expr}
    {arguments : List BoundArgument}
    (outcome : scope.bindArguments expressions = .ok arguments) :
    List.Forall₂ scope.Binds expressions arguments := by
  induction expressions generalizing arguments with
  | nil =>
      cases outcome
      exact .nil
  | cons expr rest inductionHypothesis =>
      obtain ⟨argument, later, isArgument, areLater, rfl⟩ := bindArguments_cons_eq_ok outcome
      exact .cons isArgument (inductionHypothesis areLater)

mutual

/-- Whatever binding an expression results in is made over the scope. -/
theorem makes_bind
    (expr : Expr)
    (givens : ∀ value ∈ scope.givens expr, admitted value)
    (calls : ∀ call ∈ expr.calls, written call.1 call.2)
    {node : Node}
    (outcome : scope.bind expr = .ok node) :
    scope.Makes admitted written node := by
  match expr with
  | .literal value =>
      cases outcome
      exact .literal (givens value (List.mem_singleton_self _))
  | .wildcard => exact makes_bindWildcard outcome
  | .chain segments =>
      rw [Scope.givens, List.forall_mem_append] at givens
      refine makes_bindChain ?_ (made_bindSegments segments givens.2 calls) outcome
      rw [segment_bindSegments]
      exact fun value isStart => givens.1 value (by rw [isStart]; exact List.mem_singleton_self _)
  | .binary op left right =>
      rw [Scope.givens, List.forall_mem_append] at givens
      rw [Expr.calls, List.forall_mem_append] at calls
      obtain ⟨first, isFirst, outcome⟩ := bind_eq_ok_iff.mp outcome
      obtain ⟨second, isSecond, outcome⟩ := bind_eq_ok_iff.mp outcome
      obtain ⟨type, typed, outcome⟩ := bind_eq_ok_iff.mp outcome
      cases outcome
      exact .binary (makes_bind left givens.1 calls.1 isFirst)
        (makes_bind right givens.2 calls.2 isSecond) typed
  | .not operand =>
      obtain ⟨inner, isInner, outcome⟩ := bind_eq_ok_iff.mp outcome
      rw [bindNot] at outcome
      split at outcome
      next typed =>
          cases outcome
          exact .not (makes_bind operand givens calls isInner) typed
      next => cases outcome
  | .neg operand =>
      obtain ⟨inner, isInner, outcome⟩ := bind_eq_ok_iff.mp outcome
      rw [bindNeg] at outcome
      split at outcome
      next typed =>
          cases outcome
          exact .neg (makes_bind operand givens calls isInner) typed
      next => cases outcome

theorem made_bindSegments
    (segments : List (Segment Expr))
    (givens : ∀ value ∈ scope.givensOfSegments segments, admitted value)
    (calls : ∀ call ∈ Expr.callsOfSegments segments, written call.1 call.2) :
    ∀ bound ∈ scope.bindSegments segments, SegmentMade scope admitted written bound := by
  match segments with
  | [] => exact fun _ member => nomatch member
  | segment :: rest =>
      rw [givensOfSegments, List.forall_mem_append] at givens
      rw [Expr.callsOfSegments, List.forall_mem_append] at calls
      exact List.forall_mem_cons.mpr ⟨made_bindSegmentArguments segment givens.1 calls.1,
        made_bindSegments rest givens.2 calls.2⟩

theorem made_bindSegmentArguments
    (segment : Segment Expr)
    (givens : ∀ value ∈ scope.givensOfSegment segment, admitted value)
    (calls : ∀ call ∈ Expr.callsOfSegment segment, written call.1 call.2) :
    SegmentMade scope admitted written (scope.bindSegmentArguments segment) := by
  match segment with
  | .property name index =>
      refine ⟨fun isCall => absurd isCall Bool.false_ne_true, ?_, ?_⟩
      · intro arguments outcome
        cases outcome
        exact fun _ member => nomatch member
      · intro arguments outcome
        cases outcome
        exact .nil
  | .call name arguments index =>
      rw [Expr.callsOfSegment, List.forall_mem_cons] at calls
      exact ⟨fun _ => calls.1, fun outcome => made_bindArguments arguments givens calls.2 outcome,
        binds_bindArguments⟩

theorem made_bindArguments
    (expressions : List Expr)
    (givens : ∀ value ∈ scope.givensOfAll expressions, admitted value)
    (calls : ∀ call ∈ Expr.callsOfAll expressions, written call.1 call.2)
    {arguments : List BoundArgument}
    (outcome : scope.bindArguments expressions = .ok arguments) :
    ArgumentsMade scope admitted written arguments := by
  match expressions with
  | [] =>
      cases outcome
      exact fun _ member => nomatch member
  | expr :: rest =>
      rw [givensOfAll, List.forall_mem_append] at givens
      rw [Expr.callsOfAll, List.forall_mem_append] at calls
      obtain ⟨argument, later, isArgument, areLater, rfl⟩ := bindArguments_cons_eq_ok outcome
      intro node member
      rcases List.mem_cons.mp member with isFirst | isLater
      · cases isFirst
        cases isArgument with
        | node _ isGiven => exact makes_bind expr givens.1 calls.1 isGiven
      · exact made_bindArguments rest givens.2 calls.2 areLater node isLater

end

/-- Whatever binding an expression results in is yielded over the scope. -/
theorem yields_bind
    (expr : Expr)
    (givens : ∀ value ∈ scope.givens expr, admitted value)
    {node : Node}
    (outcome : scope.bind expr = .ok node) :
    scope.Yields admitted node :=
  makes_bind expr givens (fun _ _ => trivial) outcome

end Expressions

end Scope

end EventQuery
