import EventQuery.Proofs.Binding.Conformance

namespace EventQuery

/-!
# Formulas and their meaning

A formula is an operator expression over integers, truth values, null and the properties of one
stream.  What it means is said here without types of nodes, rows or machine words: numbers are exact
integers that must stay in the 64-bit range, an unknown operand makes the result of an operator
unknown, and conjunction and disjunction are those of three truth values, evaluated from left to
right as far as they are not decided.
-/

/-- What a formula may mean. -/
inductive Datum where
  | null
  | number (integer : Int)
  | truth (answer : Bool)
  deriving DecidableEq, Repr

namespace Datum

/-- The value at run time that stands for a datum. -/
def value : Datum → Value
  | null => .null
  | number integer => .int (Int64.ofInt integer)
  | truth answer => .bool answer

/-- The datum that a value of an integer or a truth value stands for. -/
def ofValue : Value → Datum
  | .int word => number word.toInt
  | .bool answer => truth answer
  | _ => null

/-- The place of a datum among those of its kind; false is below true. -/
def level : Datum → Int
  | null => 0
  | number integer => integer
  | truth answer => if answer then 1 else 0

/-- The 64-bit range, from the negative of the sixty-third power of two up to below that power. -/
def Fits (integer : Int) : Prop :=
  -9223372036854775808 ≤ integer ∧ integer < 9223372036854775808

instance (integer : Int) : Decidable (Fits integer) :=
  inferInstanceAs (Decidable (_ ∧ _))

/-- The number that an operator yields, unless it leaves the 64-bit range. -/
def inRange (operator : String) (integer : Int) : Except Fault Datum :=
  if Fits integer then .ok (number integer)
  else .error (.invalidOperand operator .overflow)

/-- The conjunction of three truth values: the lesser one, with the unknown one between. -/
def conjunction (first second : Datum) : Datum :=
  if first = truth false ∨ second = truth false then truth false
  else if first = truth true ∧ second = truth true then truth true
  else null

/-- The disjunction of three truth values: the greater one, with the unknown one between. -/
def disjunction (first second : Datum) : Datum :=
  if first = truth true ∨ second = truth true then truth true
  else if first = truth false ∧ second = truth false then truth false
  else null

/-- The opposite truth value. -/
def negation : Datum → Datum
  | truth answer => truth !answer
  | _ => null

/-- The opposite number. -/
def opposite : Datum → Except Fault Datum
  | number integer => inRange "-" (-integer)
  | _ => .ok null

end Datum

/-- The operators on numbers. -/
inductive Arithmetic where
  | add
  | sub
  | mul
  deriving DecidableEq, Repr

namespace Arithmetic

/-- The operator of an expression. -/
def op : Arithmetic → BinaryOp
  | add => .add
  | sub => .sub
  | mul => .mul

/-- The exact result. -/
def exact : Arithmetic → Int → Int → Int
  | add, left, right => left + right
  | sub, left, right => left - right
  | mul, left, right => left * right

/-- The result on data. -/
def apply (arithmetic : Arithmetic) : Datum → Datum → Except Fault Datum
  | .number left, .number right => Datum.inRange arithmetic.op.symbol (arithmetic.exact left right)
  | _, _ => .ok .null

end Arithmetic

/-- The comparisons of two numbers or two truth values. -/
inductive Comparison where
  | eq
  | notEq
  | lt
  | le
  | gt
  | ge
  deriving DecidableEq, Repr

namespace Comparison

/-- The operator of an expression. -/
def op : Comparison → BinaryOp
  | eq => .eq
  | notEq => .notEq
  | lt => .lt
  | le => .le
  | gt => .gt
  | ge => .ge

/-- Whether a comparison holds of two integers. -/
def holds : Comparison → Int → Int → Bool
  | eq, left, right => left = right
  | notEq, left, right => left ≠ right
  | lt, left, right => left < right
  | le, left, right => left ≤ right
  | gt, left, right => left > right
  | ge, left, right => left ≥ right

/-- The result on data. -/
def apply (comparison : Comparison) (left right : Datum) : Datum :=
  if left = .null ∨ right = .null then .null
  else .truth (comparison.holds left.level right.level)

end Comparison

/-- An operator expression over literals and the properties of one stream. -/
inductive Formula where
  | number (word : Int64)
  | truth (answer : Bool)
  | null
  /-- A property of the stream, with or without the name of the stream before it. -/
  | property (name : String) (qualified : Bool)
  | arithmetic (symbol : Arithmetic) (left : Formula) (right : Formula)
  | comparison (symbol : Comparison) (left : Formula) (right : Formula)
  | and (left : Formula) (right : Formula)
  | or (left : Formula) (right : Formula)
  | not (operand : Formula)
  | neg (operand : Formula)
  deriving DecidableEq, Repr

namespace Formula

/-- The expression that a formula over a stream is written as. -/
def expr (stream : Stream) : Formula → Expr
  | number word => .literal (.int word)
  | truth answer => .literal (.bool answer)
  | null => .literal .null
  | property name true => .path [stream.name, name]
  | property name false => .ident name
  | arithmetic symbol left right =>
      .binary symbol.op (left.expr stream) (right.expr stream)
  | comparison symbol left right =>
      .binary symbol.op (left.expr stream) (right.expr stream)
  | and left right => .binary .and (left.expr stream) (right.expr stream)
  | or left right => .binary .or (left.expr stream) (right.expr stream)
  | not operand => .not (operand.expr stream)
  | neg operand => .neg (operand.expr stream)

/--
What a formula means for an event, or the first fault from left to right.  The right operand of a
conjunction or disjunction that the left one decides is not looked at.
-/
def meaning (event : Event) : Formula → Except Fault Datum
  | number word => .ok (.number word.toInt)
  | truth answer => .ok (.truth answer)
  | null => .ok .null
  | property name _ => .ok (.ofValue (event.read name))
  | arithmetic symbol left right => do
      let first ← left.meaning event
      let second ← right.meaning event
      symbol.apply first second
  | comparison symbol left right => do
      let first ← left.meaning event
      let second ← right.meaning event
      return symbol.apply first second
  | and left right => do
      let first ← left.meaning event
      if first = .truth false then return .truth false
      let second ← right.meaning event
      return first.conjunction second
  | or left right => do
      let first ← left.meaning event
      if first = .truth true then return .truth true
      let second ← right.meaning event
      return first.disjunction second
  | not operand => do
      let datum ← operand.meaning event
      return datum.negation
  | neg operand => do
      let datum ← operand.meaning event
      datum.opposite

end Formula

/-- The kinds of formulas.  Those of the last kind are always null. -/
inductive Kind where
  | number
  | truth
  | null
  deriving DecidableEq, Repr

namespace Kind

/-- Kinds that may stand where a number is expected. -/
def isNumber (kind : Kind) : Bool := kind != truth

/-- Kinds that may stand where a truth value is expected. -/
def isTruth (kind : Kind) : Bool := kind != number

/-- Kinds that may be compared. -/
def comparable (left right : Kind) : Bool := left == right || left == null || right == null

/-- The kind of a sum. -/
def sum : Kind → Kind → Kind
  | number, number => number
  | _, _ => null

/-- The data of a kind.  Numbers are in the 64-bit range. -/
def Admits : Kind → Datum → Prop
  | _, .null => True
  | number, .number integer => Datum.Fits integer
  | truth, .truth _ => True
  | _, _ => False

/-- The type of the values of a kind. -/
def type : Kind → ValueType
  | number => .int
  | truth => .bool
  | null => .null

/-- The types that binding gives to formulas of a kind; that of a sum with null is unknown. -/
def Typed (kind : Kind) (type : ValueType) : Prop :=
  type = kind.type ∨ kind = null ∧ type = .unknown

end Kind

namespace Scope

/-- The ways in which a scope reads a name as a property of a stream. -/
inductive Reads (scope : Scope) (stream : Stream) (name : String) : Bool → Prop
  | qualified
      (found : scope.findStream stream.name = some stream) :
      Reads scope stream name true
  | ofDefault
      (noStream : scope.findStream name = none)
      (noNamespace : scope.schema.namespace? name = none)
      (isDefault : scope.defaultStream = some stream) :
      Reads scope stream name false
  | ofOnly
      (noStream : scope.findStream name = none)
      (noNamespace : scope.schema.namespace? name = none)
      (noDefault : scope.defaultStream = none)
      (only : scope.streams.filter (scope.declares name) = [stream]) :
      Reads scope stream name false

/-- The declared properties of a stream have values of their types in an event, or none. -/
def Suits (scope : Scope) (stream : Stream) (event : Event) : Prop :=
  ∀ shape name property, scope.shapeOf stream = some shape →
    shape.property? name = some property → property.type.Includes (event.read name)

end Scope

namespace Formula

variable {scope : Scope} {stream : Stream} {formula : Formula} {kind : Kind}

/-- Well-typed formulas over a stream that is a single event, with their kinds. -/
inductive HasKind (scope : Scope) (stream : Stream) : Formula → Kind → Prop
  | number (word : Int64) : HasKind scope stream (.number word) .number
  | truth (answer : Bool) : HasKind scope stream (.truth answer) .truth
  | null : HasKind scope stream .null .null
  | property {name : String} {qualified : Bool} {shape : Shape} {property : Property} {kind : Kind}
      (single : stream.indexed = false)
      (shaped : scope.shapeOf stream = some shape)
      (declared : shape.property? name = some property)
      (typed : property.type = kind.type)
      (reads : scope.Reads stream name qualified) :
      HasKind scope stream (.property name qualified) kind
  | arithmetic {left right : Formula} {first second : Kind} (symbol : Arithmetic)
      (leftTyped : HasKind scope stream left first)
      (rightTyped : HasKind scope stream right second)
      (leftNumber : first.isNumber = true)
      (rightNumber : second.isNumber = true) :
      HasKind scope stream (.arithmetic symbol left right) (first.sum second)
  | comparison {left right : Formula} {first second : Kind} (symbol : Comparison)
      (leftTyped : HasKind scope stream left first)
      (rightTyped : HasKind scope stream right second)
      (comparable : first.comparable second = true) :
      HasKind scope stream (.comparison symbol left right) .truth
  | and {left right : Formula} {first second : Kind}
      (leftTyped : HasKind scope stream left first)
      (rightTyped : HasKind scope stream right second)
      (leftTruth : first.isTruth = true)
      (rightTruth : second.isTruth = true) :
      HasKind scope stream (.and left right) .truth
  | or {left right : Formula} {first second : Kind}
      (leftTyped : HasKind scope stream left first)
      (rightTyped : HasKind scope stream right second)
      (leftTruth : first.isTruth = true)
      (rightTruth : second.isTruth = true) :
      HasKind scope stream (.or left right) .truth
  | not {operand : Formula} {inner : Kind}
      (operandTyped : HasKind scope stream operand inner)
      (operandTruth : inner.isTruth = true) :
      HasKind scope stream (.not operand) .truth
  | neg {operand : Formula} {inner : Kind}
      (operandTyped : HasKind scope stream operand inner)
      (operandNumber : inner.isNumber = true) :
      HasKind scope stream (.neg operand) inner

/-- The bound expressions that have the tree of a formula, whatever types are noted in them. -/
inductive Renders (stream : Stream) : Formula → Node → Prop
  | number (word : Int64) : Renders stream (.number word) (.literal (.int word))
  | truth (answer : Bool) : Renders stream (.truth answer) (.literal (.bool answer))
  | null : Renders stream .null (.literal .null)
  | property (name : String) (qualified : Bool) (type : ValueType) :
      Renders stream (.property name qualified) (.access stream.slot name type)
  | arithmetic {left right : Formula} {first second : Node} (symbol : Arithmetic)
      (type : ValueType)
      (leftRendered : Renders stream left first)
      (rightRendered : Renders stream right second) :
      Renders stream (.arithmetic symbol left right) (.binary symbol.op first second type)
  | comparison {left right : Formula} {first second : Node} (symbol : Comparison)
      (type : ValueType)
      (leftRendered : Renders stream left first)
      (rightRendered : Renders stream right second) :
      Renders stream (.comparison symbol left right) (.binary symbol.op first second type)
  | and {left right : Formula} {first second : Node} (type : ValueType)
      (leftRendered : Renders stream left first)
      (rightRendered : Renders stream right second) :
      Renders stream (.and left right) (.binary .and first second type)
  | or {left right : Formula} {first second : Node} (type : ValueType)
      (leftRendered : Renders stream left first)
      (rightRendered : Renders stream right second) :
      Renders stream (.or left right) (.binary .or first second type)
  | not {operand : Formula} {inner : Node}
      (operandRendered : Renders stream operand inner) :
      Renders stream (.not operand) (.not inner)
  | neg {operand : Formula} {inner : Node} (type : ValueType)
      (operandRendered : Renders stream operand inner) :
      Renders stream (.neg operand) (.neg inner type)

end Formula

namespace Scope

section Properties

variable {scope : Scope} {stream : Stream} {name : String} {shape : Shape} {property : Property}

/-- A property is read at the slot of a stream that declares it and is a single event. -/
theorem startAtProperty_of_declared
    (single : stream.indexed = false)
    (shaped : scope.shapeOf stream = some shape)
    (declared : shape.property? name = some property) :
    ∃ text, scope.startAtProperty stream ⟨.property name none, .ok []⟩ [] =
      .ok ⟨.access stream.slot name property.type, some stream.slot, text, []⟩ := by
  have bound : scope.bindStreamProperty stream name =
      .ok (.access stream.slot name property.type) := by
    rw [bindStreamProperty, single, shaped, Option.bind_some, declared]
    rfl
  exact ⟨_, bind_eq_ok_iff.mpr ⟨_, bound, rfl⟩⟩

/-- A name that is none of a stream or namespace is a property of the row. -/
theorem bind_ident_of_bindRootProperty
    {node : Node}
    {origin : Option Nat}
    {text : String}
    (noStream : scope.findStream name = none)
    (noNamespace : scope.schema.namespace? name = none)
    (isStart :
      scope.bindRootProperty ⟨.property name none, .ok []⟩ [] = .ok ⟨node, origin, text, []⟩) :
    scope.bind (.ident name) = .ok node := by
  refine bind_eq_ok_iff.mpr ⟨⟨node, origin, text, []⟩, ?_, rfl⟩
  simpa only [bindRoot, bindSegmentArguments, Segment.isCall, Segment.name, Bool.false_eq_true,
    ↓reduceIte, noStream, noNamespace, bindSegments] using isStart

/-- A property behind the name of a stream is read at the slot of the stream. -/
theorem bind_path_of_findStream
    (single : stream.indexed = false)
    (found : scope.findStream stream.name = some stream)
    (shaped : scope.shapeOf stream = some shape)
    (declared : shape.property? name = some property) :
    scope.bind (.path [stream.name, name]) = .ok (.access stream.slot name property.type) := by
  have atStream : scope.bindRoot ⟨.property stream.name none, .ok []⟩
      [⟨.property name none, .ok []⟩] =
        .ok ⟨.slot stream.slot (.event stream.eventType), some stream.slot, stream.name ++ "",
          [⟨.property name none, .ok []⟩]⟩ := by
    simp only [bindRoot, Segment.isCall, Segment.name, Bool.false_eq_true, ↓reduceIte, found,
      Stream.slotType, single]
    rfl
  have atProperty : scope.bindShapeProperty (.slot stream.slot (.event stream.eventType))
      stream.eventType name = .ok (.access stream.slot name property.type) := by
    refine bind_eq_ok_iff.mpr ⟨shape, ?_, ?_⟩
    · have shaped : scope.schema.shape? stream.eventType = some shape := shaped
      rw [requireShape, shaped]
    · rw [declared]
      rfl
  refine bind_eq_ok_iff.mpr ⟨_, atStream, bind_eq_ok_iff.mpr ⟨_, ?_, rfl⟩⟩
  exact bind_eq_ok_iff.mpr ⟨_, atProperty, rfl⟩

/-- A property that a scope reads is bound to an access at the slot of its stream. -/
theorem Reads.bind_property
    {qualified : Bool}
    (reads : scope.Reads stream name qualified)
    (single : stream.indexed = false)
    (shaped : scope.shapeOf stream = some shape)
    (declared : shape.property? name = some property) :
    scope.bind ((Formula.property name qualified).expr stream) =
      .ok (.access stream.slot name property.type) := by
  obtain ⟨text, started⟩ := startAtProperty_of_declared single shaped declared
  cases reads with
  | qualified found => exact bind_path_of_findStream single found shaped declared
  | ofDefault noStream noNamespace isDefault =>
      have isDeclared : scope.declares name stream = true := by
        simp [declares, shaped, Shape.declares, declared]
      have isStart : scope.bindRootProperty ⟨.property name none, .ok []⟩ [] =
          scope.startAtProperty stream ⟨.property name none, .ok []⟩ [] := by
        simp only [bindRootProperty, isDefault, Segment.name, isDeclared, ↓reduceIte]
      exact bind_ident_of_bindRootProperty noStream noNamespace (isStart.trans started)
  | ofOnly noStream noNamespace noDefault only =>
      have isStart : scope.bindRootProperty ⟨.property name none, .ok []⟩ [] =
          scope.startAtProperty stream ⟨.property name none, .ok []⟩ [] := by
        simp only [bindRootProperty, noDefault, Segment.name, only]
      exact bind_ident_of_bindRootProperty noStream noNamespace (isStart.trans started)

/-- Where a stream is the only one, its properties are read with its name before them. -/
theorem Reads.of_only_qualified
    (only : scope.streams = [stream]) :
    scope.Reads stream name true := by
  refine .qualified ?_
  simp [findStream, only]

/-- Where a stream is the only one, its properties are read by names that mean nothing else. -/
theorem Reads.of_only
    (only : scope.streams = [stream])
    (noStream : name ≠ stream.name)
    (noNamespace : scope.schema.namespace? name = none)
    (isDeclared : scope.declares name stream = true) :
    scope.Reads stream name false := by
  have notFound : scope.findStream name = none := by
    simp [findStream, only, noStream.symm]
  rcases default : scope.defaultStream with _ | other
  · refine .ofOnly notFound noNamespace default ?_
    simp [only, isDeclared]
  · have member := mem_of_defaultStream default
    rw [only, List.mem_singleton] at member
    exact .ofDefault notFound noNamespace (default.trans (congrArg some member))

end Properties

end Scope

namespace Kind.Typed

variable {kind first second : Kind} {type left right : ValueType}

theorem isNumberLike
    (typed : kind.Typed type)
    (isNumber : kind.isNumber = true) :
    type.isNumberLike = true := by
  rcases typed with rfl | ⟨_, rfl⟩
  · cases kind with
    | number | null => rfl
    | truth => cases isNumber
  · rfl

theorem isBoolean
    (typed : kind.Typed type)
    (isTruth : kind.isTruth = true) :
    type.isBoolean = true := by
  rcases typed with rfl | ⟨_, rfl⟩
  · cases kind with
    | truth | null => rfl
    | number => cases isTruth
  · rfl

theorem comparable
    (leftTyped : first.Typed left)
    (rightTyped : second.Typed right)
    (comparable : first.comparable second = true) :
    left.comparable right = true := by
  rcases leftTyped with rfl | ⟨_, rfl⟩
  · rcases rightTyped with rfl | ⟨_, rfl⟩
    · cases first <;> cases second <;> first | rfl | cases comparable
    · simp [ValueType.comparable, ValueType.isDynamic]
  · simp [ValueType.comparable, ValueType.isDynamic]

theorem eq_int
    (typed : number.Typed type) :
    type = .int := by
  rcases typed with rfl | ⟨isNull, _⟩
  · rfl
  · cases isNull

theorem eq_null_or_unknown
    (typed : null.Typed type) :
    type = .null ∨ type = .unknown :=
  typed.imp_right And.right

/-- A sum has the type of numbers when both operands do, and otherwise none that is known. -/
theorem sum
    (leftTyped : first.Typed left)
    (rightTyped : second.Typed right)
    (leftNumber : first.isNumber = true)
    (rightNumber : second.isNumber = true) :
    (first.sum second).Typed ((left.numericJoin? right).getD .unknown) := by
  cases first with
  | truth => cases leftNumber
  | number =>
      obtain rfl := leftTyped.eq_int
      cases second with
      | truth => cases rightNumber
      | number =>
          obtain rfl := rightTyped.eq_int
          exact .inl rfl
      | null => rcases rightTyped.eq_null_or_unknown with rfl | rfl <;> exact .inr ⟨rfl, rfl⟩
  | null =>
      rcases leftTyped.eq_null_or_unknown with rfl | rfl
      · cases second with
        | truth => cases rightNumber
        | number =>
            obtain rfl := rightTyped.eq_int
            exact .inr ⟨rfl, rfl⟩
        | null => rcases rightTyped.eq_null_or_unknown with rfl | rfl <;> exact .inr ⟨rfl, rfl⟩
      · exact .inr ⟨rfl, rfl⟩

theorem opposite
    (typed : kind.Typed type) :
    kind.Typed (if type = .null then .unknown else type) := by
  rcases typed with rfl | ⟨rfl, rfl⟩
  · cases kind with
    | number | truth => exact .inl rfl
    | null => exact .inr ⟨rfl, rfl⟩
  · exact .inr ⟨rfl, rfl⟩

end Kind.Typed

/-- The type of a sum, difference or product of two numbers. -/
theorem Arithmetic.resultType_op
    {left right : ValueType}
    (symbol : Arithmetic)
    (leftNumber : left.isNumberLike = true)
    (rightNumber : right.isNumberLike = true)
    (context : String) :
    symbol.op.resultType context left right = .ok ((left.numericJoin? right).getD .unknown) := by
  have both : BinaryOp.requireBoth ValueType.isNumberLike context .float left right = .ok () := by
    simp [BinaryOp.requireBoth, leftNumber, rightNumber]
  cases symbol <;> exact bind_eq_ok_iff.mpr ⟨(), both, rfl⟩

/-- The type of a comparison of two values that may be compared. -/
theorem Comparison.resultType_op
    {left right : ValueType}
    (symbol : Comparison)
    (comparable : left.comparable right = true)
    (context : String) :
    symbol.op.resultType context left right = .ok .bool := by
  cases symbol <;> simp [Comparison.op, BinaryOp.resultType, comparable]

/-- The type of a conjunction or disjunction of two truth values. -/
theorem BinaryOp.resultType_of_isLogical
    {left right : ValueType}
    (op : BinaryOp)
    (isLogical : op.isLogical = true)
    (leftBoolean : left.isBoolean = true)
    (rightBoolean : right.isBoolean = true)
    (context : String) :
    op.resultType context left right = .ok .bool := by
  have both : requireBoth ValueType.isBoolean context .bool left right = .ok () := by
    simp [requireBoth, leftBoolean, rightBoolean]
  cases op with
  | and | or => exact bind_eq_ok_iff.mpr ⟨(), both, rfl⟩
  | _ => cases isLogical

/-- An operator is bound when its operands are and their types go together. -/
theorem Scope.bind_binary
    {scope : Scope}
    {op : BinaryOp}
    {left right : Expr}
    {first second : Node}
    {type : ValueType}
    (leftBound : scope.bind left = .ok first)
    (rightBound : scope.bind right = .ok second)
    (typed : ∀ context, op.resultType context first.type second.type = .ok type) :
    scope.bind (.binary op left right) = .ok (.binary op first second type) :=
  bind_eq_ok_iff.mpr ⟨first, leftBound, bind_eq_ok_iff.mpr ⟨second, rightBound,
    bind_eq_ok_iff.mpr ⟨type, typed _, rfl⟩⟩⟩

namespace Formula

variable {scope : Scope} {stream : Stream} {formula : Formula} {kind : Kind}

/-- A well-typed formula is bound to an expression with its tree, of a type of its kind. -/
theorem HasKind.bind_expr
    (typed : formula.HasKind scope stream kind) :
    ∃ node, scope.bind (formula.expr stream) = .ok node ∧ formula.Renders stream node ∧
      kind.Typed node.type := by
  induction typed with
  | number word => exact ⟨_, rfl, .number word, .inl rfl⟩
  | truth answer => exact ⟨_, rfl, .truth answer, .inl rfl⟩
  | null => exact ⟨_, rfl, .null, .inl rfl⟩
  | property single shaped declared typed reads =>
      exact ⟨_, reads.bind_property single shaped declared, .property _ _ _, .inl typed⟩
  | arithmetic symbol _ _ leftNumber rightNumber leftHypothesis rightHypothesis =>
      obtain ⟨left, leftBound, leftRendered, leftTyped⟩ := leftHypothesis
      obtain ⟨right, rightBound, rightRendered, rightTyped⟩ := rightHypothesis
      have typed := symbol.resultType_op (leftTyped.isNumberLike leftNumber)
        (rightTyped.isNumberLike rightNumber)
      exact ⟨_, Scope.bind_binary leftBound rightBound typed,
        .arithmetic symbol _ leftRendered rightRendered,
        leftTyped.sum rightTyped leftNumber rightNumber⟩
  | comparison symbol _ _ comparable leftHypothesis rightHypothesis =>
      obtain ⟨left, leftBound, leftRendered, leftTyped⟩ := leftHypothesis
      obtain ⟨right, rightBound, rightRendered, rightTyped⟩ := rightHypothesis
      have typed := symbol.resultType_op (leftTyped.comparable rightTyped comparable)
      exact ⟨_, Scope.bind_binary leftBound rightBound typed,
        .comparison symbol _ leftRendered rightRendered, .inl rfl⟩
  | and _ _ leftTruth rightTruth leftHypothesis rightHypothesis =>
      obtain ⟨left, leftBound, leftRendered, leftTyped⟩ := leftHypothesis
      obtain ⟨right, rightBound, rightRendered, rightTyped⟩ := rightHypothesis
      have typed := BinaryOp.and.resultType_of_isLogical rfl
        (leftTyped.isBoolean leftTruth) (rightTyped.isBoolean rightTruth)
      exact ⟨_, Scope.bind_binary leftBound rightBound typed,
        .and _ leftRendered rightRendered, .inl rfl⟩
  | or _ _ leftTruth rightTruth leftHypothesis rightHypothesis =>
      obtain ⟨left, leftBound, leftRendered, leftTyped⟩ := leftHypothesis
      obtain ⟨right, rightBound, rightRendered, rightTyped⟩ := rightHypothesis
      have typed := BinaryOp.or.resultType_of_isLogical rfl
        (leftTyped.isBoolean leftTruth) (rightTyped.isBoolean rightTruth)
      exact ⟨_, Scope.bind_binary leftBound rightBound typed,
        .or _ leftRendered rightRendered, .inl rfl⟩
  | not _ operandTruth inductionHypothesis =>
      obtain ⟨operand, bound, rendered, typed⟩ := inductionHypothesis
      refine ⟨_, bind_eq_ok_iff.mpr ⟨operand, bound, ?_⟩, .not rendered, .inl rfl⟩
      rw [Scope.bindNot, typed.isBoolean operandTruth]
      rfl
  | neg _ operandNumber inductionHypothesis =>
      obtain ⟨operand, bound, rendered, typed⟩ := inductionHypothesis
      refine ⟨_, bind_eq_ok_iff.mpr ⟨operand, bound, ?_⟩, .neg _ rendered, typed.opposite⟩
      rw [Scope.bindNeg, typed.isNumberLike operandNumber]
      rfl

end Formula

end EventQuery
