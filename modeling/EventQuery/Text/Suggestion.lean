import EventQuery.Text.Casing
import EventQuery.Text.EditDistance

namespace EventQuery

/-!
# Suggestions for misspelt names

A message about an unknown name offers the closest known one, if it is close enough.  Closeness is
the edit distance between the lower-case forms, and the allowance grows with the length of the name.
-/

namespace Suggestion

/-- How far a suggestion may be: half the number of characters, at least one and at most three. -/
def allowance (name : String) : Nat := min (max (name.length / 2) 1) 3

/-- The first of the candidates with the least distance, with that distance. -/
def nearest : List (String × Nat) → Option (String × Nat)
  | [] => none
  | candidate :: rest =>
      match nearest rest with
      | none => some candidate
      | some other => if other.2 < candidate.2 then some other else some candidate

/-- The closest known name within the allowance; of equally close ones the first. -/
def closest (name : String) (candidates : List String) : Option String :=
  let lowered := Casing.lowercase name
  let measured := candidates.map fun candidate =>
    (candidate, editDistance lowered (Casing.lowercase candidate))
  (nearest (measured.filter fun candidate => candidate.2 ≤ allowance name)).map Prod.fst

/-- The ending of a message that offers the closest known name, or nothing. -/
def hint (name : String) (candidates : List String) : String :=
  match closest name candidates with
  | some candidate => "; did you mean '" ++ candidate ++ "'?"
  | none => ""

end Suggestion

end EventQuery
