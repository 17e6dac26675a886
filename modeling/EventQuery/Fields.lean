import EventQuery.Table

namespace EventQuery

/-!
# Named fields in order of first mention

Fields are a table of contents under names.
-/

/-- Contents under names, in order of first mention. -/
abbrev Fields (α : Type) := Table String α

namespace Fields

variable {α : Type}

/-- The names in order. -/
def names (fields : Fields α) : List String := fields.map Prod.fst

/-- Put pairs one after another, so that a repeated name keeps its first place and last content. -/
def ofList (pairs : List (String × α)) : Fields α :=
  pairs.foldl (fun fields pair => fields.put pair.1 pair.2) []

end Fields

end EventQuery
