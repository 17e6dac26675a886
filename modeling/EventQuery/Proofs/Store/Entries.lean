import EventQuery.Table
import Mathlib.Data.List.Basic

namespace EventQuery

namespace Table

/-!
# Entries of tables

In a table where no key is there twice, what is found under a key is what stands there as an entry.
Putting and forgetting keys keeps tables so.
-/

variable {Key Content Other : Type} [BEq Key] {table : Table Key Content} {key : Key}
  {content : Content}

/-- What is found under a key stands under an equal one. -/
theorem mem_of_find?
    (found : table.find? key = some content) :
    ∃ held, (held == key) = true ∧ (held, content) ∈ table := by
  induction table with
  | nil =>
      cases found
  | cons entry rest inductionHypothesis =>
      obtain ⟨first, old⟩ := entry
      rw [find?] at found
      split at found
      next same =>
          cases found
          exact ⟨first, same, List.mem_cons_self⟩
      next =>
          obtain ⟨held, same, member⟩ := inductionHypothesis found
          exact ⟨held, same, List.mem_cons_of_mem _ member⟩

/-- Something is found under a key that equals a key of the table. -/
theorem isSome_find?_iff :
    (table.find? key).isSome ↔ ∃ entry ∈ table, (entry.1 == key) = true := by
  induction table with
  | nil =>
      simp [find?]
  | cons entry rest inductionHypothesis =>
      rw [find?]
      split
      next same => simp [same]
      next different => simpa [different] using inductionHypothesis

/-- Changing all contents changes what is found. -/
theorem find?_mapContents
    (change : Content → Other) :
    (table.mapContents change).find? key = (table.find? key).map change := by
  induction table with
  | nil =>
      rfl
  | cons entry rest inductionHypothesis =>
      rw [mapContents] at inductionHypothesis ⊢
      rw [List.map_cons, find?, find?, inductionHypothesis]
      split <;> rfl

/-- Putting what is there changes nothing. -/
theorem put_eq_self
    (found : table.find? key = some content) :
    table.put key content = table := by
  induction table with
  | nil =>
      cases found
  | cons entry rest inductionHypothesis =>
      obtain ⟨first, old⟩ := entry
      rw [find?] at found
      rw [put]
      split at found
      next same =>
          cases found
          rw [if_pos same]
      next different =>
          rw [if_neg different, inductionHypothesis found]

theorem put_ne_nil : table.put key content ≠ [] := by
  cases table with
  | nil =>
      simp [put]
  | cons entry rest =>
      rw [put]
      split <;> simp

/-- Of two contents put under one key the later one counts. -/
theorem put_put
    [ReflBEq Key]
    {later : Content} :
    (table.put key content).put key later = table.put key later := by
  induction table with
  | nil =>
      simp [put]
  | cons entry rest inductionHypothesis =>
      by_cases same : (entry.1 == key) = true
      · simp [put, same]
      · simp [put, same, inductionHypothesis]

/-- Putting a new key and forgetting it again changes nothing. -/
theorem erase_put
    [ReflBEq Key]
    (absent : table.find? key = none) :
    (table.put key content).erase key = table := by
  induction table with
  | nil =>
      simp [put, erase]
  | cons entry rest inductionHypothesis =>
      rw [find?] at absent
      split at absent
      next =>
          cases absent
      next different =>
          rw [erase] at inductionHypothesis ⊢
          simp [put, different, inductionHypothesis absent]

/-- Putting a key changes no other key. -/
theorem keys_put
    {entry : Key × Content}
    (member : entry ∈ table.put key content) :
    entry.1 = key ∨ ∃ old, (entry.1, old) ∈ table := by
  induction table with
  | nil =>
      exact .inl (congrArg Prod.fst (List.mem_singleton.mp member))
  | cons first rest inductionHypothesis =>
      rw [put] at member
      split at member
      next =>
          rcases List.mem_cons.mp member with isFirst | inRest
          · exact .inr ⟨first.2, by rw [isFirst]; exact List.mem_cons_self⟩
          · exact .inr ⟨entry.2, List.mem_cons_of_mem _ inRest⟩
      next =>
          rcases List.mem_cons.mp member with isFirst | inRest
          · exact .inr ⟨first.2, by rw [isFirst]; exact List.mem_cons_self⟩
          · rcases inductionHypothesis inRest with isKey | ⟨old, inOld⟩
            · exact .inl isKey
            · exact .inr ⟨old, List.mem_cons_of_mem _ inOld⟩

namespace Distinct

theorem nil : Distinct ([] : Table Key Content) := List.Pairwise.nil

/-- Changing all contents leaves the keys as they are. -/
theorem mapContents
    (distinct : table.Distinct)
    (change : Content → Other) :
    (table.mapContents change).Distinct :=
  List.pairwise_map.mpr distinct

theorem erase
    (distinct : table.Distinct)
    (key : Key) :
    (table.erase key).Distinct :=
  distinct.filter _

/-- What stands under a key is found under it. -/
theorem find?_eq_some
    [EquivBEq Key]
    (distinct : table.Distinct)
    (member : (key, content) ∈ table) :
    table.find? key = some content := by
  induction table with
  | nil =>
      cases member
  | cons entry rest inductionHypothesis =>
      obtain ⟨first, others⟩ := List.pairwise_cons.mp distinct
      rw [find?]
      rcases List.mem_cons.mp member with isFirst | inRest
      · cases isFirst
        rw [if_pos BEq.rfl]
      · rw [if_neg (by simpa using first _ inRest)]
        exact inductionHypothesis others inRest

theorem put
    (distinct : table.Distinct)
    (key : Key)
    (content : Content) :
    (table.put key content).Distinct := by
  induction table with
  | nil =>
      exact List.pairwise_singleton _ _
  | cons first rest inductionHypothesis =>
      obtain ⟨differs, others⟩ := List.pairwise_cons.mp distinct
      rw [Table.put]
      split
      next =>
          exact List.pairwise_cons.mpr ⟨differs, others⟩
      next different =>
          refine List.pairwise_cons.mpr ⟨fun entry member => ?_, inductionHypothesis others⟩
          rcases keys_put member with isKey | ⟨old, inOld⟩
          · rw [isKey]
            simpa using different
          · exact differs (entry.1, old) inOld

end Distinct

end Table

end EventQuery
