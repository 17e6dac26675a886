namespace EventQuery

/-!
# Evaluation faults

A fault is what an evaluation yields in place of a value.  It names its cause; the wording of every
cause stands in this module.
-/

/-- What is wrong with an operand.  Kinds of values are given by their words. -/
inductive OperandProblem where
  /-- Two values have no order. -/
  | incomparable (left : String) (right : String)
  /-- An arithmetic operator has an operand that is no number. -/
  | notNumbers (left : String) (right : String)
  /-- An integer result is outside the 64-bit range. -/
  | overflow
  /-- A value that is no number is to be negated. -/
  | notNegatable (kind : String)
  /-- A point of time is to be shifted by something that is no length of time. -/
  | notDuration (kind : String)
  /-- A built-in method has a receiver of a kind that it is not made for. -/
  | unexpectedReceiver (kind : String)
  /-- An aggregation over numbers has met another value. -/
  | notNumber (kind : String)
  /-- A running sum leaves the 64-bit range when the value with this text is added. -/
  | overflowAdding (addend : String)
  deriving DecidableEq, Repr

namespace OperandProblem

/-- The wording of a problem. -/
def message : OperandProblem → String
  | incomparable left right => "cannot compare " ++ left ++ " with " ++ right
  | notNumbers left right => "expected numbers, found " ++ left ++ " and " ++ right
  | overflow => "integer overflow"
  | notNegatable kind => "cannot negate " ++ kind
  | notDuration kind => "expected duration, found " ++ kind
  | unexpectedReceiver kind => "unexpected receiver of type " ++ kind
  | notNumber kind => "expected a number, found " ++ kind
  | overflowAdding addend => "integer overflow adding " ++ addend

end OperandProblem

/-- A failed evaluation. -/
inductive Fault where
  /-- A method or function of the schema reported a failure. -/
  | methodFailed (method : String) (report : String)
  | divisionByZero
  | invalidOperand (operator : String) (problem : OperandProblem)
  deriving DecidableEq, Repr

namespace Fault

/-- The wording of a fault. -/
def message : Fault → String
  | methodFailed method report => "Method '" ++ method ++ "' raised: " ++ report
  | divisionByZero => "Division by zero"
  | invalidOperand operator problem =>
      "Invalid operand for '" ++ operator ++ "': " ++ problem.message

end Fault

end EventQuery
