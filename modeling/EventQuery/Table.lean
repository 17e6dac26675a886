namespace EventQuery

/-!
# Tables

Contents under keys, in order of first mention.  Keys are told apart by a Boolean equality, so that
different keys may be the same to a table.  Putting a key that is already present replaces its
content and leaves it at its place; a new key goes to the end.
-/

/-- Contents under keys, in order of first mention. -/
abbrev Table (Key Content : Type) := List (Key × Content)

namespace Table

variable {Key Content : Type} [BEq Key]

/-- The content under a key. -/
def find? (table : Table Key Content) (key : Key) : Option Content :=
  match table with
  | [] => none
  | (held, content) :: rest => if held == key then some content else find? rest key

/-- Put a content under a key. -/
def put (table : Table Key Content) (key : Key) (content : Content) : Table Key Content :=
  match table with
  | [] => [(key, content)]
  | (held, old) :: rest =>
      if held == key then (held, content) :: rest else (held, old) :: put rest key content

/-- Forget a key and what is under it. -/
def erase (table : Table Key Content) (key : Key) : Table Key Content :=
  table.filter fun entry => !(entry.1 == key)

/-- Change all contents. -/
def mapContents {Other : Type} (table : Table Key Content) (change : Content → Other) :
    Table Key Other :=
  table.map fun (key, content) => (key, change content)

/-- No key is there twice. -/
def Distinct (table : Table Key Content) : Prop :=
  table.Pairwise fun first second => (first.1 == second.1) = false

section Look

variable [EquivBEq Key] {table : Table Key Content} {key other : Key} {content : Content}

/-- The content under the key just put is the one put, and that of other keys is as before. -/
theorem find?_put :
    (table.put key content).find? other =
      if key == other then some content else table.find? other := by
  induction table with
  | nil => rfl
  | cons entry rest inductionHypothesis =>
      obtain ⟨held, old⟩ := entry
      by_cases same : (held == key) = true
      · have congruent : (held == other) = (key == other) := BEq.congr_left same
        cases hit : key == other <;> simp [put, find?, same, congruent, hit]
      · by_cases hit : (held == other) = true
        · have different : (key == other) = false := by
            rw [← BEq.congr_right hit, BEq.comm]
            simpa using same
          simp [put, find?, same, hit, different]
        · simpa [put, find?, same, hit] using inductionHypothesis

/-- The content under the key just put is the one put. -/
@[simp] theorem find?_put_self : (table.put key content).find? key = some content := by
  simp [find?_put]

/-- A key that is forgotten has no content, and that of other keys is as before. -/
theorem find?_erase :
    (table.erase key).find? other = if key == other then none else table.find? other := by
  induction table with
  | nil => simp [erase, find?]
  | cons entry rest inductionHypothesis =>
      obtain ⟨held, old⟩ := entry
      rw [erase] at inductionHypothesis ⊢
      by_cases same : (held == key) = true
      · have congruent : (held == other) = (key == other) := BEq.congr_left same
        cases hit : key == other <;> simp_all [find?]
      · by_cases hit : (held == other) = true
        · have different : (key == other) = false := by
            rw [← BEq.congr_right hit, BEq.comm]
            simpa using same
          simp [find?, same, hit, different]
        · simpa [find?, same, hit] using inductionHypothesis

/-- Equal keys have the same content. -/
theorem find?_congr (same : key == other) : table.find? key = table.find? other := by
  induction table with
  | nil => rfl
  | cons entry rest inductionHypothesis =>
      simp only [find?, BEq.congr_right same, inductionHypothesis]

end Look

end Table

end EventQuery
