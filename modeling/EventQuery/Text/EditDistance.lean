namespace EventQuery

/-!
# Edit distance

The distance between two texts is the number of single characters to insert, delete or replace on
the way from one to the other.  It is computed one row at a time: the row after some characters of
the first text holds the distances to every beginning of the second.
-/

namespace EditDistance

/-- The distances from the empty text to the beginnings of a text of some length. -/
def firstRow (length : Nat) : List Nat := List.range (length + 1)

/--
The rest of the next row, given the entry to the left of it and the row above.  The entry in a
column is the least of replacing the character, deleting it, and inserting the column's character.
-/
def extendRow (character : Char) : Nat → List Nat → List Char → List Nat
  | left, diagonal :: above :: row, column :: columns =>
      let replaced := diagonal + if character = column then 0 else 1
      let entry := min (min replaced (above + 1)) (left + 1)
      entry :: extendRow character entry (above :: row) columns
  | _, _, _ => []

/-- The row after one more character of the first text. -/
def nextRow (row : List Nat) (character : Char) (columns : List Char) : List Nat :=
  let start := row.headD 0 + 1
  start :: extendRow character start row columns

/-- The row after all characters of the first text. -/
def lastRow (source target : List Char) : List Nat :=
  source.foldl (fun row character => nextRow row character target) (firstRow target.length)

end EditDistance

/-- The edit distance between two texts.  Next to an empty text it is the length of the other. -/
def editDistance (source target : String) : Nat :=
  match source.toList, target.toList with
  | [], columns => columns.length
  | characters, [] => characters.length
  | characters, columns => (EditDistance.lastRow characters columns).getLastD 0

end EventQuery
