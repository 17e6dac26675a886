namespace EventQuery

/-!
# Problems of a pattern

The reasons for which a pattern as written has no meaning, with their wording.
-/

/-- What is wrong with a pattern. -/
inductive PatternProblem where
  /-- One tag is declared for two event types. -/
  | tagConflict (tag : String) (first : String) (second : String)
  /-- An operator over any number of operands has none. -/
  | noOperands (operator : String)
  /-- A repetition asks for no occurrence at all. -/
  | emptyRepetition
  /-- A repetition asks for more than it allows. -/
  | invertedBounds (least : Nat) (most : Nat)
  /-- An operator or leaf has no node. -/
  | incompleteNode
  deriving DecidableEq, Repr

namespace PatternProblem

/-- The wording of a problem. -/
def message : PatternProblem → String
  | tagConflict tag first second =>
      "tag '" ++ tag ++ "' is bound to both " ++ first ++ " and " ++ second
  | noOperands operator => "'" ++ operator ++ "' needs at least one operand"
  | emptyRepetition => "repetition must match at least once"
  | invertedBounds least most =>
      "repetition bounds [" ++ toString least ++ ":" ++ toString most ++ "] are inverted"
  | incompleteNode => "incomplete node"

end PatternProblem

end EventQuery
