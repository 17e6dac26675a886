import EventQuery.Expr
import EventQuery.Fault
import EventQuery.Number.Word

namespace EventQuery

/-!
# Operators on values

The operators know three truth values, true, false and null.  Every other operator yields null when
an operand is null.  Integers widen to floating-point numbers where the other operand is one, and
integer results must fit the 64-bit range.
-/

namespace BinaryOp

/-- Conjunction: false decides, and only two truths are true. -/
def conjunction : Value → Value → Value
  | .bool false, _ => .bool false
  | _, .bool false => .bool false
  | .bool true, .bool true => .bool true
  | _, _ => .null

/-- Disjunction: true decides, and only two falsehoods are false. -/
def disjunction : Value → Value → Value
  | .bool true, _ => .bool true
  | _, .bool true => .bool true
  | .bool false, .bool false => .bool false
  | _, _ => .null

/-- Whether a comparison accepts the order found between its operands. -/
def admits : BinaryOp → Ordering → Bool
  | lt, ordering => ordering == .lt
  | le, ordering => ordering != .gt
  | gt, ordering => ordering == .gt
  | ge, ordering => ordering != .lt
  | _, _ => false

/-- The exact integer result of an arithmetic operator. -/
def onIntegers : BinaryOp → Int → Int → Int
  | add, left, right => left + right
  | sub, left, right => left - right
  | _, left, right => left * right

/-- The rounded result of an arithmetic operator. -/
def onFloats : BinaryOp → Binary64 → Binary64 → Binary64
  | add, left, right => left + right
  | sub, left, right => left - right
  | mul, left, right => left * right
  | _, left, right => left / right

/-- Both operands as floating-point numbers. -/
def floatOperands (op : BinaryOp) (left right : Value) : Except Fault (Binary64 × Binary64) :=
  match left.asFloat?, right.asFloat? with
  | some first, some second => .ok (first, second)
  | _, _ => .error (.invalidOperand op.symbol (.notNumbers left.kindName right.kindName))

/-- A quotient is a floating-point number; a zero divisor of either sign is a fault. -/
def quotient (left right : Value) : Except Fault Value := do
  let (dividend, divisor) ← floatOperands div left right
  if divisor.equals .zero then throw .divisionByZero
  return .float (dividend / divisor)

/-- Sums, differences and products. -/
def arithmetic (op : BinaryOp) (left right : Value) : Except Fault Value :=
  match left, right with
  | .int first, .int second =>
      match Word.checked (op.onIntegers first.toInt second.toInt) with
      | some result => .ok (.int result)
      | none => .error (.invalidOperand op.symbol .overflow)
  | _, _ => do
      let (first, second) ← floatOperands op left right
      return .float (op.onFloats first second)

/-- A comparison by order. -/
def comparison (op : BinaryOp) (left right : Value) : Except Fault Value :=
  match left.compare? right with
  | some ordering => .ok (.bool (op.admits ordering))
  | none => .error (.invalidOperand op.symbol (.incomparable left.kindName right.kindName))

/-- The result of an operator on two values. -/
def apply (op : BinaryOp) (left right : Value) : Except Fault Value :=
  match op with
  | and => .ok (conjunction left right)
  | or => .ok (disjunction left right)
  | _ =>
      if left.isNull || right.isNull then .ok .null
      else
        match op with
        | eq => .ok (.bool (left.valuesEqual right))
        | notEq => .ok (.bool (!left.valuesEqual right))
        | lt | le | gt | ge => comparison op left right
        | div => quotient left right
        | _ => arithmetic op left right

end BinaryOp

namespace Value

/-- The opposite truth value; whatever is no truth value becomes null. -/
def negation : Value → Value
  | bool truth => bool (!truth)
  | _ => null

/-- The opposite number; null stays null. -/
def opposite : Value → Except Fault Value
  | int number =>
      match Word.checked (-number.toInt) with
      | some result => .ok (int result)
      | none => .error (.invalidOperand "-" .overflow)
  | float number => .ok (float (-number))
  | null => .ok null
  | other => .error (.invalidOperand "-" (.notNegatable other.kindName))

end Value

end EventQuery
