import EventQuery.Proofs.Binding.Conformance

namespace EventQuery

/-!
# Types are preserved

Over a scope without sequences of events, a bound expression has a value of the type that binding
gave it, on every row that has events of the declared types at the slots of the streams and results
of the declared types at the slots of the aggregations.  Getters, methods and functions are taken to
keep to the types that they are declared with.
-/

/-- Getters, methods and functions yield values of the types that they are declared with. -/
structure Schema.Honest (schema : Schema) : Prop where
  getters :
    ∀ {shapeName shape name property read receiver value},
      schema.shape? shapeName = some shape → shape.property? name = some property →
        property.getter = some read → read receiver = some value →
          property.type.Includes value ∧ value.Faithful schema
  methods :
    ∀ {shapeName shape method occasion receiver arguments value},
      schema.shape? shapeName = some shape → method ∈ shape.methods →
        method.invoke occasion receiver arguments = .ok value →
          method.returns.Includes value ∧ value.Faithful schema
  functions :
    ∀ {home space function occasion arguments value},
      schema.namespace? home = some space → function ∈ space.functions →
        function.invoke occasion arguments = .ok value →
          function.returns.Includes value ∧ value.Faithful schema

/--
A row of a scope of single events: null or an event of the declared type at the slot of each stream,
and a result of the declared type at the slot of each aggregation.
-/
structure Scope.Conforms (scope : Scope) (row : Row) : Prop where
  streams :
    ∀ stream ∈ scope.streams, (ValueType.event stream.eventType).Includes (row.get stream.slot)
  aggregates :
    ∀ call slot type, scope.aggregate? call = some (slot, type) → type.Includes (row.get slot)
  faithful : ∀ value ∈ row, value.Faithful scope.schema

namespace Scope.Conforms

variable {scope : Scope} {row : Row}

theorem faithful_get
    (conforms : scope.Conforms row)
    (slot : Nat) :
    (row.get slot).Faithful scope.schema := by
  rw [Row.get, List.getD_eq_getElem?_getD]
  cases found : row[slot]? with
  | none => exact .null
  | some value => exact conforms.faithful value (List.mem_of_getElem? found)

/-- A declared property of the event at a slot has a value of its type. -/
theorem readSlot
    {index : Nat}
    {shapeName name : String}
    {shape : Shape}
    {property : Property}
    (conforms : scope.Conforms row)
    (event : (ValueType.event shapeName).Includes (row.get index))
    (shaped : scope.schema.shape? shapeName = some shape)
    (declared : shape.property? name = some property) :
    property.type.Includes (Node.readSlot row index name) ∧
      (Node.readSlot row index name).Faithful scope.schema := by
  have faithful := conforms.faithful_get index
  rw [Node.readSlot]
  split
  next entity isEvent =>
      rw [isEvent] at event faithful
      cases event
      exact ⟨faithful.obeys shape name property shaped declared, faithful.find? rfl name⟩
  next => exact ⟨ValueType.includes_null _, .null⟩

end Scope.Conforms

section Members

variable {schema : Schema} {target : Value} {name : String}

/-- A property of a faithful value without a getter is faithful. -/
theorem Node.faithful_readMember
    (faithful : target.Faithful schema) :
    (readMember target name none).Faithful schema := by
  cases target with
  | event entity => exact faithful.find? rfl name
  | map entries => exact faithful.find? rfl name
  | _ => exact .null

/-- An entry of a map has a value of the type of entries. -/
theorem Node.includes_entry
    {key entry : ValueType}
    (included : (ValueType.map key entry).Includes target) :
    entry.Includes (readMember target name none) := by
  cases target with
  | map entries =>
      refine ValueType.includes_ofOption fun value found => ?_
      obtain ⟨held, _, member⟩ := Table.mem_of_find? found
      exact (included _ member).2
  | null => exact ValueType.includes_null entry
  | _ => exact included.elim

/-- A declared property of an event or object has a value of its type. -/
theorem Node.readMember_of_declared
    {shapeName : String}
    {shape : Shape}
    {property : Property}
    {type : ValueType}
    (honest : schema.Honest)
    (faithful : target.Faithful schema)
    (typed : type = .event shapeName ∨ type = .object shapeName)
    (included : type.Includes target)
    (shaped : schema.shape? shapeName = some shape)
    (declared : shape.property? name = some property) :
    let read := readMember target name (property.getter.map fun read => ⟨shapeName, read⟩)
    property.type.Includes read ∧ read.Faithful schema := by
  have absent : property.type.Includes .null ∧ Value.null.Faithful schema :=
    ⟨ValueType.includes_null _, .null⟩
  cases target with
  | event entity =>
      rcases typed with rfl | rfl
      · cases included
        exact ⟨faithful.obeys shape name property shaped declared, faithful.find? rfl name⟩
      · exact included.elim
  | object entity =>
      rcases getter : property.getter with _ | read
      · exact absent
      · rcases reading : read (.object entity) with _ | value
        · simpa [readMember, getter, reading, Value.ofOption] using absent
        · simpa [readMember, getter, reading, Value.ofOption] using
            honest.getters shaped declared getter reading
  | null => exact absent
  | _ => rcases typed with rfl | rfl <;> exact included.elim

/-- An element of a collection conforms to the type of elements. -/
theorem Node.includes_item
    {element : ValueType}
    (included : (ValueType.array element).Includes target)
    (position : Nat) :
    element.Includes (Value.ofOption (target.item? position)) := by
  cases target with
  | array items =>
      exact ValueType.includes_ofOption fun value found =>
        included value (List.mem_of_getElem? found)
  | null => exact ValueType.includes_null element
  | _ => exact included.elim

theorem Node.faithful_item
    (faithful : target.Faithful schema)
    (position : Nat) :
    (Value.ofOption (target.item? position)).Faithful schema := by
  cases target with
  | array items =>
      exact .ofOption fun value found => faithful.part (List.mem_of_getElem? found)
  | _ => exact .null

/-- A built-in method results in a value of the type that it has on its receiver. -/
theorem Builtin.includes_apply
    {type : ValueType}
    {arity : Nat}
    {found : BuiltinSignature}
    {arguments : List Value}
    {value : Value}
    (known : lookup type name arity = some found)
    (included : type.Includes target)
    (faithful : target.Faithful schema)
    (outcome : found.method.apply target arguments = .ok value) :
    found.returns.Includes value ∧ value.Faithful schema := by
  cases type with
  | timestamp =>
      obtain ⟨method, _, isFound⟩ := Option.bind_eq_some_iff.mp known
      cases isFound
      cases target with
      | timestamp nanos =>
          obtain ⟨typed, noParts, noEvent⟩ := CalendarMethod.includes_apply outcome
          exact ⟨typed, .of_plain noParts noEvent⟩
      | _ => cases outcome
  | array element =>
      obtain ⟨method, _, isFound⟩ := Option.bind_eq_some_iff.mp known
      cases isFound
      cases target with
      | array items =>
          cases outcome
          refine ⟨method.includes_apply included, ?_⟩
          rcases method.apply_cases items arguments with
            member | ⟨kept, isArray, subset⟩ | ⟨noParts, noEvent⟩
          · exact faithful.part member
          · rw [isArray]
            exact .array fun item member => faithful.part (subset member)
          · exact .of_plain noParts noEvent
      | _ => cases outcome
  | _ => cases known

end Members

namespace Scope

variable {scope : Scope}

theorem mem_insertSlot
    {slot other : Nat}
    {slots : List Nat}
    (member : other ∈ insertSlot slot slots) :
    other = slot ∨ other ∈ slots := by
  induction slots with
  | nil => exact .inl (List.mem_singleton.mp member)
  | cons first rest inductionHypothesis =>
      rw [insertSlot] at member
      split at member
      next => exact List.mem_cons.mp member
      next =>
          split at member
          next => exact .inr member
          next =>
              rcases List.mem_cons.mp member with isFirst | later
              · exact .inr (isFirst ▸ List.mem_cons_self)
              · exact (inductionHypothesis later).imp id (List.mem_cons_of_mem _)

/-- The slots of the streams are those at which a stream stands. -/
theorem exists_of_mem_streamSlots
    {slot : Nat}
    (member : slot ∈ scope.streamSlots) :
    ∃ stream ∈ scope.streams, stream.slot = slot := by
  rw [streamSlots] at member
  generalize scope.streams = streams at member ⊢
  induction streams with
  | nil => cases member
  | cons stream rest inductionHypothesis =>
      rw [List.map_cons, List.foldr_cons] at member
      rcases mem_insertSlot member with isSlot | later
      · exact ⟨stream, List.mem_cons_self, isSlot.symm⟩
      · obtain ⟨other, inRest, isOther⟩ := inductionHypothesis later
        exact ⟨other, List.mem_cons_of_mem _ inRest, isOther⟩

namespace Conforms

variable {row : Row}

/-- The events of all streams are a collection of events. -/
theorem includes_streams
    (conforms : scope.Conforms row) :
    (ValueType.array .anyEvent).Includes (.array (scope.streamSlots.map row.get)) := by
  intro item member
  obtain ⟨slot, isSlot, rfl⟩ := List.mem_map.mp member
  obtain ⟨stream, isStream, rfl⟩ := exists_of_mem_streamSlots isSlot
  have included := conforms.streams stream isStream
  cases isItem : row.get stream.slot with
  | null => exact trivial
  | event entity => exact trivial
  | _ =>
      rw [isItem] at included
      exact included.elim

theorem faithful_streams
    (conforms : scope.Conforms row) :
    ∀ item ∈ scope.streamSlots.map row.get, item.Faithful scope.schema := by
  intro item member
  obtain ⟨slot, _, rfl⟩ := List.mem_map.mp member
  exact conforms.faithful_get slot

end Conforms

end Scope

namespace Node

variable {scope : Scope} {receiver : Node} {row : Row} {occasion : Occasion} {value : Value}

/-- A call of a built-in method on something that is not null has the result of the method. -/
theorem evaluate_builtin_eq_ok
    {callee : Builtin}
    {arguments : List Node}
    {type : ValueType}
    (outcome : (Node.builtin receiver callee arguments type).evaluate row occasion = .ok value) :
    value = .null ∨ ∃ target values, receiver.evaluate row (0 :: occasion) = .ok target ∧
      callee.apply target values = .ok value := by
  obtain ⟨target, isTarget, outcome⟩ := bind_eq_ok_iff.mp outcome
  split at outcome
  next =>
      cases outcome
      exact .inl rfl
  next =>
      obtain ⟨values, _, applied⟩ := bind_eq_ok_iff.mp outcome
      exact .inr ⟨target, values, isTarget, applied⟩

theorem invoked_eq_ok_iff
    {signature : MethodSignature}
    {result : Except String Value} :
    invoked signature result = .ok value ↔ result = .ok value := by
  cases result <;> simp [invoked]

theorem evaluate_method_eq_ok
    {callee : BoundMethod}
    {arguments : List Node}
    {type : ValueType}
    (outcome : (Node.method receiver callee arguments type).evaluate row occasion = .ok value) :
    value = .null ∨ ∃ target values, callee.invoke occasion target values = .ok value := by
  obtain ⟨target, isTarget, outcome⟩ := bind_eq_ok_iff.mp outcome
  split at outcome
  next =>
      cases outcome
      exact .inl rfl
  next =>
      obtain ⟨values, _, called⟩ := bind_eq_ok_iff.mp outcome
      exact .inr ⟨target, values, invoked_eq_ok_iff.mp called⟩

theorem evaluate_function_eq_ok
    {callee : BoundFunction}
    {arguments : List Node}
    {type : ValueType}
    (outcome : (Node.function callee arguments type).evaluate row occasion = .ok value) :
    ∃ values, callee.invoke occasion values = .ok value := by
  obtain ⟨values, _, called⟩ := bind_eq_ok_iff.mp outcome
  exact ⟨values, invoked_eq_ok_iff.mp called⟩

/-- Only a truth value decides the result of an operator alone, and it is the result. -/
theorem decided?_eq_some
    {op : BinaryOp}
    {left result : Value}
    (decided : decided? op left = some result) :
    (op.isLogical || op.isComparison) = true ∧ ∃ truth, result = .bool truth := by
  rw [decided?.eq_def] at decided
  split at decided
  next =>
      cases decided
      exact ⟨rfl, _, rfl⟩
  next =>
      cases decided
      exact ⟨rfl, _, rfl⟩
  next => cases decided

/-- On rows of a scope an expression has values of its type, with events of the declared types. -/
def Sound (scope : Scope) (node : Node) : Prop :=
  ∀ row, scope.Conforms row → ∀ occasion value, node.evaluate row occasion = .ok value →
    node.type.Includes value ∧ value.Faithful scope.schema

namespace Sound

/-- A property has values of a type when it has on all values of its receiver. -/
theorem read
    {name : String}
    {getter : Option BoundGetter}
    {type : ValueType}
    (sound : receiver.Sound scope)
    (typed :
      ∀ target, receiver.type.Includes target → target.Faithful scope.schema →
        type.Includes (readMember target name getter) ∧
          (readMember target name getter).Faithful scope.schema) :
    (Node.read receiver name getter type).Sound scope := by
  intro row conforms occasion value outcome
  obtain ⟨target, isTarget, outcome⟩ := bind_eq_ok_iff.mp outcome
  cases outcome
  obtain ⟨included, faithful⟩ := sound row conforms _ target isTarget
  exact typed target included faithful

theorem item
    {position : Nat}
    {type : ValueType}
    (sound : receiver.Sound scope)
    (typed :
      ∀ target, receiver.type.Includes target → target.Faithful scope.schema →
        type.Includes (Value.ofOption (target.item? position)) ∧
          (Value.ofOption (target.item? position)).Faithful scope.schema) :
    (Node.item receiver position type).Sound scope := by
  intro row conforms occasion value outcome
  obtain ⟨target, isTarget, outcome⟩ := bind_eq_ok_iff.mp outcome
  cases outcome
  obtain ⟨included, faithful⟩ := sound row conforms _ target isTarget
  exact typed target included faithful

/-- An operator on operands that have values of their types. -/
theorem binary
    {op : BinaryOp}
    {context : String}
    {left right : Node}
    {type : ValueType}
    (leftSound : left.Sound scope)
    (rightSound : right.Sound scope)
    (typed : op.resultType context left.type right.type = .ok type) :
    (Node.binary op left right type).Sound scope := by
  intro row conforms occasion value outcome
  obtain ⟨first, isFirst, outcome⟩ := bind_eq_ok_iff.mp outcome
  split at outcome
  next decided isDecided =>
      cases outcome
      obtain ⟨isLogical, truth, rfl⟩ := decided?_eq_some isDecided
      rw [Node.type, (BinaryOp.resultType_eq_ok typed).1 isLogical]
      exact ⟨trivial, .of_plain rfl rfl⟩
  next =>
      obtain ⟨second, isSecond, outcome⟩ := bind_eq_ok_iff.mp outcome
      exact ⟨BinaryOp.includes_apply typed (leftSound row conforms _ first isFirst).1
          (rightSound row conforms _ second isSecond).1 outcome,
        BinaryOp.faithful_apply outcome⟩

/-- The opposite of an operand that has values of its type. -/
theorem neg
    {operand : Node}
    (sound : operand.Sound scope) :
    (Node.neg operand (if operand.type = .null then .unknown else operand.type)).Sound scope := by
  intro row conforms occasion value outcome
  obtain ⟨given, isGiven, outcome⟩ := bind_eq_ok_iff.mp outcome
  obtain ⟨included, faithful⟩ := sound row conforms _ given isGiven
  obtain ⟨opposite, noParts, noEvent⟩ := Value.opposite_of_includes included outcome
  refine ⟨?_, .of_plain noParts noEvent⟩
  rw [Node.type]
  split
  next => exact ValueType.includes_of_isDynamic rfl value
  next => exact opposite

end Sound

end Node

namespace Scope

variable {scope : Scope}

/-- Everything that binding yields has values of its type. -/
theorem Yields.sound
    {admitted : Value → Prop}
    {node : Node}
    (yielded : scope.Yields admitted node)
    (honest : scope.schema.Honest)
    (single : ∀ stream ∈ scope.streams, stream.indexed = false)
    (uniform : ∀ value, admitted value → value.Uniform ∧ value.Faithful scope.schema) :
    node.Sound scope := by
  induction yielded with
  | @literal value isAdmitted =>
      intro row conforms occasion result outcome
      cases outcome
      obtain ⟨isUniform, faithful⟩ := uniform value isAdmitted
      exact ⟨isUniform.includes_type, faithful⟩
  | @stream stream member =>
      intro row conforms occasion result outcome
      cases outcome
      refine ⟨?_, conforms.faithful_get stream.slot⟩
      rw [Node.type, Stream.slotType, single stream member]
      exact conforms.streams stream member
  | row =>
      intro row conforms occasion result outcome
      cases outcome
      exact ⟨conforms.includes_streams, .array conforms.faithful_streams⟩
  | @aggregate call slot type found =>
      intro row conforms occasion result outcome
      cases outcome
      exact ⟨conforms.aggregates call slot type found, conforms.faithful_get slot⟩
  | @streamProperty stream shape name property member _ shaped declared =>
      intro row conforms occasion result outcome
      cases outcome
      exact conforms.readSlot (conforms.streams stream member) shaped declared
  | slotProperty receiver shaped declared inductionHypothesis =>
      intro row conforms occasion result outcome
      cases outcome
      exact conforms.readSlot (inductionHypothesis row conforms [] _ rfl).1 shaped declared
  | property made typed shaped declared inductionHypothesis =>
      exact inductionHypothesis.read fun target included faithful =>
        Node.readMember_of_declared honest faithful typed included shaped declared
  | entry made typed inductionHypothesis =>
      exact inductionHypothesis.read fun target included faithful =>
        ⟨Node.includes_entry (typed ▸ included), Node.faithful_readMember faithful⟩
  | unknownProperty made typed inductionHypothesis =>
      exact inductionHypothesis.read fun target _ faithful =>
        ⟨ValueType.includes_of_isDynamic rfl _, Node.faithful_readMember faithful⟩
  | @item receiver position element made typed inductionHypothesis =>
      exact inductionHypothesis.item fun target included faithful =>
        ⟨Node.includes_item (typed ▸ included) position, Node.faithful_item faithful position⟩
  | @unknownItem receiver position made typed inductionHypothesis =>
      exact inductionHypothesis.item fun target _ faithful =>
        ⟨ValueType.includes_of_isDynamic rfl _, Node.faithful_item faithful position⟩
  | builtin made known arguments inductionHypothesis _ =>
      intro row conforms occasion result outcome
      rcases Node.evaluate_builtin_eq_ok outcome with rfl | ⟨target, values, isTarget, applied⟩
      · exact ⟨ValueType.includes_null _, .null⟩
      · obtain ⟨included, faithful⟩ := inductionHypothesis row conforms _ target isTarget
        exact Builtin.includes_apply known included faithful applied
  | method made typed shaped declared _ _ arguments inductionHypothesis _ =>
      intro row conforms occasion result outcome
      rcases Node.evaluate_method_eq_ok outcome with rfl | ⟨target, values, invoked⟩
      · exact ⟨ValueType.includes_null _, .null⟩
      · exact honest.methods shaped declared invoked
  | function spaced declared _ _ arguments _ =>
      intro row conforms occasion result outcome
      obtain ⟨values, invoked⟩ := Node.evaluate_function_eq_ok outcome
      exact honest.functions spaced declared invoked
  | binary first second typed firstHypothesis secondHypothesis =>
      exact firstHypothesis.binary secondHypothesis typed
  | not made typed inductionHypothesis =>
      intro row conforms occasion result outcome
      obtain ⟨operand, _, outcome⟩ := bind_eq_ok_iff.mp outcome
      cases outcome
      cases operand <;> exact ⟨trivial, .of_plain rfl rfl⟩
  | neg made typed inductionHypothesis => exact inductionHypothesis.neg

/--
The type that binding gives an expression over single events holds of every value that the
expression has: on every row that conforms to the scope it has null, a value that conforms to the
type, or a fault.  The literals with collections and the constants that chains start from must each
have elements of one type.
-/
theorem bind_preserves_type
    {expr : Expr}
    {node : Node}
    {row : Row}
    {occasion : Occasion}
    {value : Value}
    (honest : scope.schema.Honest)
    (single : ∀ stream ∈ scope.streams, stream.indexed = false)
    (uniform : ∀ given ∈ scope.givens expr, given.Uniform ∧ given.Faithful scope.schema)
    (bound : scope.bind expr = .ok node)
    (conforms : scope.Conforms row)
    (outcome : node.evaluate row occasion = .ok value) :
    node.type.Includes value := by
  have yielded : scope.Yields (· ∈ scope.givens expr) node :=
    yields_bind expr (fun _ member => member) bound
  exact (yielded.sound honest single uniform row conforms occasion value outcome).1

/-- Readings have a level, which an event may give as an integer, and whole samples. -/
def readingShape : Shape :=
  ⟨"Reading", true, [("level", ⟨.float, none⟩), ("samples", ⟨.array .int, none⟩)], []⟩

/-- The scope of one stream of readings. -/
def readingScope : Scope :=
  ⟨Schema.empty.addShape readingShape, [⟨"r", "Reading", 0, false⟩], none, []⟩

/-- A reading with an integer level. -/
def reading : Event :=
  ⟨.given 0, "Reading", [("level", .int 3), ("samples", .array [.int 1, .int 2])]⟩

/-- The sum of the samples and twice the level. -/
def sumOfReading : Expr :=
  .binary .add (.chain [.property "samples" none, .call "sumOf" [] none])
    (.binary .mul (.literal (.int 2)) (.ident "level"))

/-- The sum bound over readings is a floating-point number. -/
def boundSumOfReading : Node :=
  .binary .add
    (.builtin (.access 0 "samples" (.array .int)) (.enumeration .sumOf) [] .int)
    (.binary .mul (.literal (.int 2)) (.access 0 "level" .float) .float) .float

theorem eq_readingShape
    {name : String}
    {shape : Shape}
    (shaped : readingScope.schema.shape? name = some shape) :
    shape = readingShape := by
  obtain ⟨_, _, member⟩ := Table.mem_of_find? shaped
  exact congrArg Prod.snd (List.mem_singleton.mp member)

theorem readingScope_honest : readingScope.schema.Honest := by
  refine ⟨?_, ?_, ?_⟩
  · intro _ shape name property read receiver value shaped declared getter _
    rw [eq_readingShape shaped] at declared
    obtain ⟨_, _, member⟩ := Table.mem_of_find? declared
    have noGetter : ∀ held ∈ readingShape.properties, held.2.getter = none := by
      simp [readingShape]
    rw [noGetter _ member] at getter
    cases getter
  · intro _ shape method _ _ _ _ shaped declared _
    rw [eq_readingShape shaped] at declared
    cases declared
  · intro _ _ _ _ _ _ spaced _ _
    cases spaced

theorem reading_obeys : reading.Obeys readingScope.schema := by
  intro shape name property shaped declared
  rw [eq_readingShape shaped] at declared
  obtain ⟨held, isHeld, member⟩ := Table.mem_of_find? declared
  have isName := eq_of_beq isHeld
  subst isName
  simp only [readingShape, List.mem_cons, List.not_mem_nil, or_false, Prod.mk.injEq] at member
  rcases member with ⟨rfl, rfl⟩ | ⟨rfl, rfl⟩
  · exact trivial
  · intro item isItem
    have samples : item ∈ [Value.int 1, Value.int 2] := isItem
    simp only [List.mem_cons, List.not_mem_nil, or_false] at samples
    rcases samples with rfl | rfl <;> exact trivial

theorem reading_faithful : (Value.event reading).Faithful readingScope.schema := by
  have whole : ∀ number, (Value.int number).Faithful readingScope.schema :=
    fun _ => .of_plain rfl rfl
  refine .intro ?_ fun _ isReading => Value.event.inj isReading ▸ reading_obeys
  simp only [Value.parts, reading, List.map_cons, List.map_nil, List.forall_mem_cons]
  exact ⟨whole 3, .array (by simp [whole]), nofun⟩

theorem readingScope_conforms : readingScope.Conforms [.event reading] := by
  refine ⟨?_, nofun, List.forall_mem_singleton.mpr reading_faithful⟩
  intro stream member
  rw [List.mem_singleton.mp member]
  rfl

theorem bind_preserves_type_sumOfReading :
    readingScope.bind sumOfReading = .ok boundSumOfReading ∧
      boundSumOfReading.evaluate [.event reading] [] = .ok (.int 9) ∧
        ValueType.float.Includes (.int 9) := by
  have uniform : ∀ given ∈ readingScope.givens sumOfReading,
      given.Uniform ∧ given.Faithful readingScope.schema := by
    intro given member
    rw [show readingScope.givens sumOfReading = [.int 2] from rfl] at member
    rw [List.mem_singleton.mp member]
    exact ⟨.other rfl, .of_plain rfl rfl⟩
  have single : ∀ stream ∈ readingScope.streams, stream.indexed = false := by decide
  have bound : readingScope.bind sumOfReading = .ok boundSumOfReading := rfl
  have outcome : boundSumOfReading.evaluate [.event reading] [] = .ok (.int 9) := rfl
  exact ⟨bound, outcome,
    bind_preserves_type readingScope_honest single uniform bound readingScope_conforms outcome⟩

end Scope

end EventQuery
