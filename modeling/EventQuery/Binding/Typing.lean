import EventQuery.Binding.Error
import EventQuery.Expr

namespace EventQuery

/-!
# Types of operators

The types that the operands of an operator must have, and the type of its result.
-/

namespace ValueType

/-- Types that may stand where a truth value is expected. -/
def isBoolean (type : ValueType) : Bool := type == .bool || type == .null || type.isDynamic

/-- Types that may stand where a number is expected. -/
def isNumberLike (type : ValueType) : Bool :=
  type.isNumeric || type.isDynamic || type == .null

/-- Types whose values have an order of their own, numbers apart. -/
def isOrdered : ValueType → Bool
  | str | timestamp | duration | bool => true
  | _ => false

/-- Whether values of two types may be compared by order. -/
def comparable (left right : ValueType) : Bool :=
  left.isDynamic || right.isDynamic || left == .null || right == .null ||
    (left.isNumeric && right.isNumeric) || (left == right && left.isOrdered)

end ValueType

namespace BinaryOp

/-- Both operands must satisfy a condition; the first that does not is reported. -/
def requireBoth (condition : ValueType → Bool) (context : String) (expected : ValueType)
    (left right : ValueType) : Except BindingError Unit :=
  if !condition left then .error (.mismatch context expected left)
  else if !condition right then .error (.mismatch context expected right)
  else .ok ()

/-- The type of the result for operands of two types. -/
def resultType (op : BinaryOp) (context : String) (left right : ValueType) :
    Except BindingError ValueType :=
  match op with
  | and | or => do
      requireBoth ValueType.isBoolean context .bool left right
      return .bool
  | eq | notEq =>
      if left.comparable right || left == right then .ok .bool
      else .error (.mismatch context left right)
  | lt | le | gt | ge =>
      if left.comparable right then .ok .bool else .error (.mismatch context left right)
  | div => do
      requireBoth ValueType.isNumberLike context .float left right
      return .float
  | add | sub | mul => do
      requireBoth ValueType.isNumberLike context .float left right
      return (left.numericJoin? right).getD .unknown

end BinaryOp

end EventQuery
