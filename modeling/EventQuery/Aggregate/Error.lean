import EventQuery.Binding.Error

namespace EventQuery

/-!
# Activation errors

A statement is refused when its expressions cannot be bound or its aggregations cannot be set up.
The same errors stop a running statement whose aggregation state cannot be created.
-/

/-- What is wrong with an aggregation call. -/
inductive AggregateProblem where
  | wildcardArgument
  | argumentCount (expected : Nat) (found : Nat)
  | notNumeric (type : ValueType)
  | notComparable (type : ValueType)
  /-- The two ends of an edge have types that do not go together. -/
  | verticesDiffer (source : ValueType) (target : ValueType)
  /-- An aggregation call stands among the arguments of another. -/
  | nested
  deriving DecidableEq, Repr

namespace AggregateProblem

/-- The wording of a problem. -/
def message : AggregateProblem → String
  | wildcardArgument => "wildcard argument is not supported"
  | argumentCount expected found =>
      "expected " ++ toString expected ++ " argument(s), found " ++ toString found
  | notNumeric type => "expected a numeric argument, found " ++ type.text
  | notComparable type => "values of type " ++ type.text ++ " are not comparable"
  | verticesDiffer source target =>
      "vertex types differ: " ++ source.text ++ " and " ++ target.text
  | nested => "aggregation functions cannot be nested"

end AggregateProblem

/-- Why a statement cannot be started or go on. -/
inductive ActivationError where
  | binding (error : BindingError)
  | unknownAggregation (function : String) (hint : String)
  /-- The state of a function could not be created for a group. -/
  | creationFailed (function : String) (report : String)
  | invalidAggregation (function : String) (problem : AggregateProblem)
  deriving DecidableEq, Repr

namespace ActivationError

/-- The wording of an error. -/
def message : ActivationError → String
  | binding error => "Failed to validate statement: " ++ error.message
  | unknownAggregation function hint =>
      "Unknown aggregation function '" ++ function ++ hint ++ "'"
  | creationFailed function report =>
      "Aggregation function '" ++ function ++ "' failed to create its state: " ++ report
  | invalidAggregation function problem =>
      "Invalid aggregation '" ++ function ++ "': " ++ problem.message

end ActivationError

end EventQuery
