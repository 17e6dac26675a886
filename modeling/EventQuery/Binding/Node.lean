import EventQuery.Builtin
import EventQuery.Operator
import EventQuery.Schema

namespace EventQuery

/-!
# Bound expressions

A bound expression has decided which property, method or function every name means, and carries the
type of its result.  It is evaluated against one row, and no name is looked up any more.
-/

/-- The identification of a method in messages. -/
structure MethodSignature where
  owner : String
  name : String
  parameters : List ValueType
  deriving DecidableEq, Repr

namespace MethodSignature

/-- The owner, the name and the parameter types. -/
def text (signature : MethodSignature) : String :=
  signature.owner ++ "." ++ signature.name ++ "(" ++
    String.intercalate ", " (signature.parameters.map ValueType.text) ++ ")"

end MethodSignature

/-- A method that a call has been bound to. -/
structure BoundMethod where
  signature : MethodSignature
  invoke : Occasion → Value → List Value → Except String Value

/-- A function that a call has been bound to. -/
structure BoundFunction where
  signature : MethodSignature
  invoke : Occasion → List Value → Except String Value

/-- The way in which a class reads a property of its objects. -/
structure BoundGetter where
  owner : String
  read : Value → Option Value

/-- A bound expression. -/
inductive Node where
  | literal (value : Value)
  /-- The whole value at a slot of the row. -/
  | slot (index : Nat) (type : ValueType)
  /-- The values at several slots, as one collection. -/
  | row (slots : List Nat)
  /-- A property of the event at a slot. -/
  | access (index : Nat) (property : String) (type : ValueType)
  /-- A property of the result of another expression. -/
  | read (receiver : Node) (property : String) (getter : Option BoundGetter) (type : ValueType)
  | item (receiver : Node) (position : Nat) (type : ValueType)
  | builtin (receiver : Node) (callee : Builtin) (arguments : List Node) (type : ValueType)
  | method (receiver : Node) (callee : BoundMethod) (arguments : List Node) (type : ValueType)
  | function (callee : BoundFunction) (arguments : List Node) (type : ValueType)
  | binary (op : BinaryOp) (left : Node) (right : Node) (type : ValueType)
  | not (operand : Node)
  | neg (operand : Node) (type : ValueType)

namespace Node

/-- The type of the result. -/
def type : Node → ValueType
  | literal value => value.type
  | slot _ type => type
  | row _ => .array .anyEvent
  | access _ _ type => type
  | read _ _ _ type => type
  | item _ _ type => type
  | builtin _ _ _ type => type
  | method _ _ _ type => type
  | function _ _ type => type
  | binary _ _ _ type => type
  | not _ => .bool
  | neg _ type => type

/-- A property of a value: of an event or map by name, of an object by the getter of its class. -/
def readMember (receiver : Value) (property : String) (getter : Option BoundGetter) : Value :=
  match receiver with
  | .event event => event.read property
  | .map entries => Value.ofOption (Table.find? entries property)
  | .object _ => Value.ofOption (getter.bind fun getter => getter.read receiver)
  | _ => .null

/-- A property of the event at a slot, null when there is no event. -/
def readSlot (row : Row) (slot : Nat) (property : String) : Value :=
  match row.get slot with
  | .event event => event.read property
  | _ => .null

/-- Whether the left operand of an operator decides the result alone. -/
def decided? : BinaryOp → Value → Option Value
  | .and, .bool false => some (.bool false)
  | .or, .bool true => some (.bool true)
  | _, _ => none

/-- The failure of a method is a fault that names the method. -/
def invoked (signature : MethodSignature) : Except String Value → Except Fault Value
  | .ok value => .ok value
  | .error report => .error (.methodFailed signature.text report)

mutual

/--
The value of an expression on a row.  The parts are evaluated from left to right and the first fault
is the result.  A method of null is null and its arguments are not evaluated, nor is the right
operand of an operator that the left one decides.
-/
def evaluate (row : Row) (occasion : Occasion) : Node → Except Fault Value
  | .literal value => .ok value
  | .slot index _ => .ok (row.get index)
  | .row slots => .ok (.array (slots.map row.get))
  | .access index property _ => .ok (readSlot row index property)
  | .read receiver property getter _ => do
      let target ← evaluate row (0 :: occasion) receiver
      return readMember target property getter
  | .item receiver position _ => do
      let target ← evaluate row (0 :: occasion) receiver
      return Value.ofOption (target.item? position)
  | .builtin receiver callee arguments _ => do
      let target ← evaluate row (0 :: occasion) receiver
      if target.isNull then return .null
      let values ← evaluateAll row occasion 1 arguments
      callee.apply target values
  | .method receiver callee arguments _ => do
      let target ← evaluate row (0 :: occasion) receiver
      if target.isNull then return .null
      let values ← evaluateAll row occasion 1 arguments
      invoked callee.signature (callee.invoke occasion target values)
  | .function callee arguments _ => do
      let values ← evaluateAll row occasion 0 arguments
      invoked callee.signature (callee.invoke occasion values)
  | .binary op left right _ => do
      let first ← evaluate row (0 :: occasion) left
      match decided? op first with
      | some value => return value
      | none =>
          let second ← evaluate row (1 :: occasion) right
          op.apply first second
  | .not operand => do
      let value ← evaluate row (0 :: occasion) operand
      return value.negation
  | .neg operand _ => do
      let value ← evaluate row (0 :: occasion) operand
      value.opposite

/-- The values of several expressions, the parts of one, numbered from a position on. -/
def evaluateAll (row : Row) (occasion : Occasion) : Nat → List Node → Except Fault (List Value)
  | _, [] => .ok []
  | position, node :: rest => do
      let value ← evaluate row (position :: occasion) node
      let values ← evaluateAll row occasion (position + 1) rest
      return value :: values

end

/-- Whether a row passes an expression used as a filter: only true passes. -/
def passes (node : Node) (row : Row) (occasion : Occasion) : Except Fault Bool := do
  let value ← node.evaluate row occasion
  return value.asBool? == some true

mutual

/-- Whether two bound expressions are alike, with methods compared by their signatures. -/
def same : Node → Node → Bool
  | .literal left, .literal right => left.equals right
  | .slot index type, .slot otherIndex otherType => index == otherIndex && type == otherType
  | .row slots, .row otherSlots => slots == otherSlots
  | .access index property type, .access otherIndex otherProperty otherType =>
      index == otherIndex && property == otherProperty && type == otherType
  | .read receiver property getter type, .read otherReceiver otherProperty otherGetter otherType =>
      same receiver otherReceiver && property == otherProperty &&
        getter.map BoundGetter.owner == otherGetter.map BoundGetter.owner && type == otherType
  | .item receiver position type, .item otherReceiver otherPosition otherType =>
      same receiver otherReceiver && position == otherPosition && type == otherType
  | .builtin receiver callee arguments type,
      .builtin otherReceiver otherCallee otherArguments otherType =>
      same receiver otherReceiver && callee == otherCallee &&
        allSame arguments otherArguments && type == otherType
  | .method receiver callee arguments type,
      .method otherReceiver otherCallee otherArguments otherType =>
      same receiver otherReceiver && callee.signature == otherCallee.signature &&
        allSame arguments otherArguments && type == otherType
  | .function callee arguments type, .function otherCallee otherArguments otherType =>
      callee.signature == otherCallee.signature &&
        allSame arguments otherArguments && type == otherType
  | .binary op left right type, .binary otherOp otherLeft otherRight otherType =>
      op == otherOp && same left otherLeft && same right otherRight && type == otherType
  | .not operand, .not otherOperand => same operand otherOperand
  | .neg operand type, .neg otherOperand otherType =>
      same operand otherOperand && type == otherType
  | _, _ => false

/-- Whether two lists of bound expressions are alike. -/
def allSame : List Node → List Node → Bool
  | [], [] => true
  | left :: lefts, right :: rights => same left right && allSame lefts rights
  | _, _ => false

end

end Node

end EventQuery
