import EventQuery.Text.EditDistance
import Mathlib.Order.Bounds.Basic
import Mathlib.Order.MinMax

namespace EventQuery

/-!
# The least number of edits

One edit inserts, deletes or replaces a single character.  The edit distance is the least number of
edits that turn one text into the other, and so a metric.

Edits may come in any order and at any places.  An alignment goes through both texts once, from the
front, and pays for what it does not keep; it says where the edits are without their order.
Alignments compose at no extra cost, so nothing is gained by edits that undo one another, and the
cheapest alignment is what the rows of the computation hold, for the texts read backwards.
-/

/-- One character is inserted, deleted or replaced. -/
inductive Edit : List Char → List Char → Prop where
  | insert (front behind : List Char) (character : Char) :
      Edit (front ++ behind) (front ++ character :: behind)
  | delete (front behind : List Char) (character : Char) :
      Edit (front ++ character :: behind) (front ++ behind)
  | replace (front behind : List Char) (character other : Char) :
      Edit (front ++ character :: behind) (front ++ other :: behind)

/-- A number of edits, one after another, turn one text into another. -/
inductive Edits : Nat → List Char → List Char → Prop where
  | none (text : List Char) : Edits 0 text text
  | next {count : Nat} {source between target : List Char} :
      Edit source between → Edits count between target → Edits (count + 1) source target

section Scripts

variable {count more : Nat} {source between target : List Char}

theorem Edit.symm
    (edit : Edit source target) :
    Edit target source := by
  cases edit with
  | insert front behind character => exact .delete front behind character
  | delete front behind character => exact .insert front behind character
  | replace front behind character other => exact .replace front behind other character

/-- The same edit behind one more character. -/
theorem Edit.cons
    (edit : Edit source target)
    (first : Char) :
    Edit (first :: source) (first :: target) := by
  cases edit with
  | insert front behind character => exact .insert (first :: front) behind character
  | delete front behind character => exact .delete (first :: front) behind character
  | replace front behind character other => exact .replace (first :: front) behind character other

/-- The same edit in the texts read backwards. -/
theorem Edit.reverse
    (edit : Edit source target) :
    Edit source.reverse target.reverse := by
  cases edit with
  | insert front behind character =>
      simpa using Edit.insert behind.reverse front.reverse character
  | delete front behind character =>
      simpa using Edit.delete behind.reverse front.reverse character
  | replace front behind character other =>
      simpa using Edit.replace behind.reverse front.reverse character other

theorem Edits.cons
    (edits : Edits count source target)
    (first : Char) :
    Edits count (first :: source) (first :: target) := by
  induction edits with
  | none text => exact .none (first :: text)
  | next edit _ inductionHypothesis => exact .next (edit.cons first) inductionHypothesis

theorem Edits.reverse
    (edits : Edits count source target) :
    Edits count source.reverse target.reverse := by
  induction edits with
  | none text => exact .none text.reverse
  | next edit _ inductionHypothesis => exact .next edit.reverse inductionHypothesis

theorem edits_reverse_iff :
    Edits count source.reverse target.reverse ↔ Edits count source target := by
  refine ⟨fun edits => ?_, Edits.reverse⟩
  simpa only [List.reverse_reverse] using edits.reverse

theorem Edits.trans
    (edits : Edits count source between)
    (later : Edits more between target) :
    Edits (count + more) source target := by
  induction edits with
  | none => exact (Nat.zero_add more).symm ▸ later
  | @next count source middle between edit _ inductionHypothesis =>
      rw [Nat.add_right_comm]
      exact .next edit (inductionHypothesis later)

theorem Edits.symm
    (edits : Edits count source target) :
    Edits count target source := by
  induction edits with
  | none text => exact .none text
  | next edit _ inductionHypothesis => exact inductionHypothesis.trans (.next edit.symm (.none _))

/-- Without an edit a text stays what it is. -/
theorem edits_zero_iff :
    Edits 0 source target ↔ source = target := by
  constructor
  · rintro ⟨⟩
    rfl
  · rintro rfl
    exact .none source

end Scripts

/-! ## Alignments -/

/-- Two texts are gone through together, and at most some characters are not kept. -/
inductive Alignment : Nat → List Char → List Char → Prop where
  | nil (limit : Nat) : Alignment limit [] []
  | keep {limit : Nat} {source target : List Char} (character : Char) :
      Alignment limit source target → Alignment limit (character :: source) (character :: target)
  | replace {limit : Nat} {source target : List Char} (character other : Char) :
      Alignment limit source target → Alignment (limit + 1) (character :: source) (other :: target)
  | delete {limit : Nat} {source target : List Char} (character : Char) :
      Alignment limit source target → Alignment (limit + 1) (character :: source) target
  | insert {limit : Nat} {source target : List Char} (character : Char) :
      Alignment limit source target → Alignment (limit + 1) source (character :: target)

namespace Alignment

variable {limit more : Nat} {source between target : List Char}

theorem mono
    (aligned : Alignment limit source target)
    (bound : limit ≤ more) :
    Alignment more source target := by
  induction aligned generalizing more with
  | nil => exact .nil more
  | keep character _ inductionHypothesis => exact .keep character (inductionHypothesis bound)
  | replace character other _ inductionHypothesis =>
      obtain ⟨more, rfl⟩ := Nat.exists_eq_add_one_of_ne_zero (Nat.ne_zero_of_lt bound)
      exact .replace character other (inductionHypothesis (Nat.le_of_succ_le_succ bound))
  | delete character _ inductionHypothesis =>
      obtain ⟨more, rfl⟩ := Nat.exists_eq_add_one_of_ne_zero (Nat.ne_zero_of_lt bound)
      exact .delete character (inductionHypothesis (Nat.le_of_succ_le_succ bound))
  | insert character _ inductionHypothesis =>
      obtain ⟨more, rfl⟩ := Nat.exists_eq_add_one_of_ne_zero (Nat.ne_zero_of_lt bound)
      exact .insert character (inductionHypothesis (Nat.le_of_succ_le_succ bound))

theorem refl (text : List Char) : Alignment 0 text text := by
  induction text with
  | nil => exact .nil 0
  | cons first rest inductionHypothesis => exact .keep first inductionHypothesis

theorem append_left
    (aligned : Alignment limit source target)
    (front : List Char) :
    Alignment limit (front ++ source) (front ++ target) := by
  induction front with
  | nil => exact aligned
  | cons first rest inductionHypothesis => exact .keep first inductionHypothesis

/-- A single edit is an alignment that keeps all other characters. -/
theorem of_edit
    (edit : Edit source target) :
    Alignment 1 source target := by
  cases edit with
  | insert front behind character =>
      exact append_left (.insert character (refl behind)) front
  | delete front behind character =>
      exact append_left (.delete character (refl behind)) front
  | replace front behind character other =>
      exact append_left (.replace character other (refl behind)) front

/-- Behind some insertions, an alignment does something with the first character of its source. -/
theorem head_induction
    {motive : Nat → List Char → Prop}
    {first : Char}
    {rest : List Char}
    (keep : ∀ {limit target}, Alignment limit rest target → motive limit (first :: target))
    (replace : ∀ {limit target} other,
      Alignment limit rest target → motive (limit + 1) (other :: target))
    (delete : ∀ {limit target}, Alignment limit rest target → motive (limit + 1) target)
    (insert : ∀ {limit target} other, motive limit target → motive (limit + 1) (other :: target))
    (aligned : Alignment limit (first :: rest) target) :
    motive limit target := by
  generalize isSource : first :: rest = source at aligned
  induction aligned with
  | nil => cases isSource
  | keep _ aligned =>
      cases isSource
      exact keep aligned
  | replace _ other aligned =>
      cases isSource
      exact replace other aligned
  | delete _ aligned =>
      cases isSource
      exact delete aligned
  | insert other _ inductionHypothesis => exact insert other (inductionHypothesis isSource)

/--
Alignments one after the other make up one.  What happens to a character of the text between them
happens in one step, and a character that the first inserts and the second deletes needs none.
-/
theorem trans
    (aligned : Alignment limit source between)
    (later : Alignment more between target) :
    Alignment (limit + more) source target := by
  induction aligned generalizing more target with
  | nil limit => exact later.mono (Nat.le_add_left more limit)
  | delete character _ inductionHypothesis =>
      rw [Nat.add_right_comm]
      exact .delete character (inductionHypothesis later)
  | @keep limit source _ character _ joins =>
      refine head_induction
        (motive := fun more target => Alignment (limit + more) (character :: source) target)
        ?_ ?_ ?_ (fun other joined => .insert other joined) later
      · exact fun kept => .keep character (joins kept)
      · exact fun other replaced => .replace character other (joins replaced)
      · exact fun deleted => .delete character (joins deleted)
  | @replace limit source _ character between _ joins =>
      refine head_induction
        (motive := fun more target => Alignment (limit + 1 + more) (character :: source) target)
        ?_ ?_ ?_ (fun other joined => .insert other joined) later
      · exact fun kept => (replace character between (joins kept)).mono (by omega)
      · exact fun other replaced => (replace character other (joins replaced)).mono (by omega)
      · exact fun deleted => (delete character (joins deleted)).mono (by omega)
  | @insert limit source _ character _ joins =>
      refine head_induction
        (motive := fun more target => Alignment (limit + 1 + more) source target)
        ?_ ?_ ?_ (fun other joined => .insert other joined) later
      · exact fun kept => (insert character (joins kept)).mono (by omega)
      · exact fun other replaced => (insert other (joins replaced)).mono (by omega)
      · exact fun deleted => (joins deleted).mono (by omega)

/-- Edits at any places and in any order are no more than an alignment needs. -/
theorem of_edits
    (edits : Edits limit source target) :
    Alignment limit source target := by
  induction edits with
  | none text => exact refl text
  | @next count _ _ _ edit _ inductionHypothesis =>
      exact ((of_edit edit).trans inductionHypothesis).mono (Nat.add_comm 1 count).le

end Alignment

/-! ## The recurrence -/

namespace EditDistance

/-- The least number of characters that an alignment does not keep. -/
def distance : List Char → List Char → Nat
  | [], target => target.length
  | source, [] => source.length
  | first :: source, other :: target =>
      min (min (distance source target + if first = other then 0 else 1)
        (distance source (other :: target) + 1)) (distance (first :: source) target + 1)

variable {source target : List Char}

theorem distance_nil_right
    (source : List Char) :
    distance source [] = source.length := by
  cases source <;> simp [distance]

theorem distance_insert_le
    (source target : List Char)
    (character : Char) :
    distance source (character :: target) ≤ distance source target + 1 := by
  cases source with
  | nil => simp [distance]
  | cons first rest => exact (distance.eq_3 ..).trans_le (Nat.min_le_right _ _)

theorem distance_delete_le
    (source target : List Char)
    (character : Char) :
    distance (character :: source) target ≤ distance source target + 1 := by
  cases target with
  | nil => simp [distance_nil_right]
  | cons first rest =>
      rw [distance]
      exact (Nat.min_le_left _ _).trans (Nat.min_le_right _ _)

theorem distance_pair_le
    (source target : List Char)
    (character other : Char) :
    distance (character :: source) (other :: target) ≤
      distance source target + if character = other then 0 else 1 := by
  rw [distance]
  exact (Nat.min_le_left _ _).trans (Nat.min_le_left _ _)

/-- No alignment costs less than the recurrence says. -/
theorem distance_le_of_alignment
    {limit : Nat}
    (aligned : Alignment limit source target) :
    distance source target ≤ limit := by
  induction aligned with
  | nil limit =>
      rw [distance]
      exact Nat.zero_le limit
  | @keep limit source target character _ inductionHypothesis =>
      have step := distance_pair_le source target character character
      rw [if_pos rfl] at step
      exact step.trans inductionHypothesis
  | @replace limit source target character other _ inductionHypothesis =>
      have step := distance_pair_le source target character other
      have most : (if character = other then 0 else 1) ≤ 1 := by split <;> decide
      omega
  | @delete limit source target character _ inductionHypothesis =>
      exact (distance_delete_le source target character).trans (Nat.succ_le_succ inductionHypothesis)
  | @insert limit source target character _ inductionHypothesis =>
      exact (distance_insert_le source target character).trans (Nat.succ_le_succ inductionHypothesis)

/-- A text is written into the empty one character by character. -/
theorem edits_length
    (text : List Char) :
    Edits text.length [] text := by
  induction text with
  | nil => exact .none []
  | cons first rest inductionHypothesis =>
      exact .next (.insert [] [] first) (inductionHypothesis.cons first)

/-- What the recurrence counts are edits that turn one text into the other. -/
theorem edits_distance
    (source target : List Char) :
    Edits (distance source target) source target := by
  fun_induction distance source target with
  | case1 target => exact edits_length target
  | case2 source => exact (edits_length source).symm
  | case3 first source other target pair delete insert =>
      have ofPair : Edits (distance source target + if first = other then 0 else 1)
          (first :: source) (other :: target) := by
        split
        next same => exact same ▸ pair.cons first
        next => exact .next (.replace [] source first other) (pair.cons other)
      have ofDelete : Edits (distance source (other :: target) + 1)
          (first :: source) (other :: target) := .next (.delete [] source first) delete
      have ofInsert : Edits (distance (first :: source) target + 1)
          (first :: source) (other :: target) :=
        .next (.insert [] (first :: source) other) (insert.cons other)
      rcases min_choice _ (distance (first :: source) target + 1) with isLeft | isRight
      · rw [isLeft]
        rcases min_choice _ (distance source (other :: target) + 1) with isLeft | isRight
        · rwa [isLeft]
        · rwa [isRight]
      · rwa [isRight]

/-! ## The rows -/

/-- The entries of a row for the longer beginnings of a text of which some characters are passed. -/
def entries (source passed : List Char) : List Char → List Nat
  | [] => []
  | column :: columns =>
      distance source (column :: passed) :: entries source (column :: passed) columns

/-- A row is computed from the row above it. -/
theorem extendRow_entries
    (source passed columns : List Char)
    (character : Char) :
    extendRow character (distance (character :: source) passed)
        (distance source passed :: entries source passed columns) columns =
      entries (character :: source) passed columns := by
  induction columns generalizing passed with
  | nil => rfl
  | cons column columns inductionHypothesis =>
      rw [entries, entries, extendRow]
      have isEntry : min (min (distance source passed + if character = column then 0 else 1)
          (distance source (column :: passed) + 1)) (distance (character :: source) passed + 1) =
            distance (character :: source) (column :: passed) := (distance.eq_3 ..).symm
      rw [isEntry, inductionHypothesis]

/-- The row after some characters of the first text, read backwards. -/
theorem foldl_nextRow
    (source passed target : List Char) :
    source.foldl (fun row character => nextRow row character target)
        (distance passed [] :: entries passed [] target) =
      distance (source.reverse ++ passed) [] :: entries (source.reverse ++ passed) [] target := by
  induction source generalizing passed with
  | nil => rfl
  | cons first rest inductionHypothesis =>
      have isNext : nextRow (distance passed [] :: entries passed [] target) first target =
          distance (first :: passed) [] :: entries (first :: passed) [] target := by
        have start : (distance passed [] :: entries passed [] target).headD 0 + 1 =
            distance (first :: passed) [] := by
          simp [distance_nil_right]
        rw [nextRow, start, extendRow_entries]
      rw [List.foldl_cons, isNext, inductionHypothesis]
      simp

theorem entries_nil
    (passed columns : List Char) :
    entries [] passed columns = List.range' (passed.length + 1) columns.length := by
  induction columns generalizing passed with
  | nil => rfl
  | cons column columns inductionHypothesis =>
      rw [entries, inductionHypothesis, List.length_cons, List.length_cons, List.range'_succ,
        distance, List.length_cons]

theorem firstRow_eq
    (target : List Char) :
    firstRow target.length = distance [] [] :: entries [] [] target := by
  rw [firstRow, List.range_eq_range', List.range'_succ, entries_nil, distance]
  rfl

theorem getLastD_entries
    (source passed columns : List Char) :
    (distance source passed :: entries source passed columns).getLastD 0 =
      distance source (columns.reverse ++ passed) := by
  induction columns generalizing passed with
  | nil => rfl
  | cons column columns inductionHypothesis =>
      rw [entries, List.getLastD_cons, List.getLastD_cons, ← List.getLastD_cons (a := 0),
        inductionHypothesis]
      simp

/-- The last entry of the last row is the recurrence, for the texts read backwards. -/
theorem getLastD_lastRow
    (source target : List Char) :
    (lastRow source target).getLastD 0 = distance source.reverse target.reverse := by
  rw [lastRow, firstRow_eq, foldl_nextRow, getLastD_entries, List.append_nil, List.append_nil]

/-- The distance is the least number of edits. -/
theorem isLeast_distance
    (source target : List Char) :
    IsLeast {count | Edits count source target} (distance source target) :=
  ⟨edits_distance source target, fun _ edits => distance_le_of_alignment (.of_edits edits)⟩

end EditDistance

open EditDistance

/-- Where a text is empty, the rows lead to the same distance as its length. -/
theorem editDistance_eq
    (source target : String) :
    editDistance source target = (lastRow source.toList target.toList).getLastD 0 := by
  rw [editDistance]
  cases source.toList with
  | nil => rw [getLastD_lastRow, List.reverse_nil, distance, List.length_reverse]
  | cons first rest =>
      cases target.toList with
      | nil => rw [getLastD_lastRow, List.reverse_nil, distance_nil_right, List.length_reverse]
      | cons column columns => rfl

/-- The edit distance is the least number of edits that turn one text into the other. -/
theorem isLeast_editDistance
    (source target : String) :
    IsLeast {count | Edits count source.toList target.toList} (editDistance source target) := by
  have backwards := isLeast_distance source.toList.reverse target.toList.reverse
  simp only [edits_reverse_iff] at backwards
  rwa [editDistance_eq, getLastD_lastRow]

/--
The edit distance is the least number of single characters to insert, delete or replace on the way
from one text to the other.  So it is a metric: it is zero between a text and itself only, it is the
same in both directions, and no way by a third text is shorter.
-/
theorem editDistance_counts_least_edits
    (first second third : String) :
    IsLeast {count | Edits count first.toList second.toList} (editDistance first second) ∧
      (editDistance first second = 0 ↔ first = second) ∧
      editDistance first second = editDistance second first ∧
      editDistance first third ≤ editDistance first second + editDistance second third := by
  have isLeast := isLeast_editDistance first second
  refine ⟨isLeast, ⟨fun isZero => ?_, fun same => ?_⟩, ?_, ?_⟩
  · rw [isZero] at isLeast
    exact String.toList_inj.mp (edits_zero_iff.mp isLeast.1)
  · exact Nat.le_zero.mp (isLeast.2 (edits_zero_iff.mpr (congrArg String.toList same)))
  · have isLeastBack := isLeast_editDistance second first
    exact Nat.le_antisymm (isLeast.2 isLeastBack.1.symm) (isLeastBack.2 isLeast.1.symm)
  · have later := isLeast_editDistance second third
    exact (isLeast_editDistance first third).2 (isLeast.1.trans later.1)

example : editDistance "kitten" "sitting" = 3 := by decide +kernel

end EventQuery
