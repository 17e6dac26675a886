import EventQuery.Aggregate.TreeShape
import EventQuery.Value.Basic

namespace EventQuery

/-!
# Ordered counts

The values that a least or greatest value is chosen from are kept in order, each with the number of
times it is held.  Values are looked for by way of a search tree, and of values that are found equal
the first one stands for all.
-/

/-- Values in order with the number of times each is held, and the shape of the tree over them. -/
structure ExtremeSet where
  counts : List (Value × Nat)
  shape : TreeShape
  deriving Repr, Inhabited

namespace ExtremeSet

/--
The order of the values.  Two floating-point numbers are ordered by their words, values that can be
compared as they compare, and all others by the words for their kinds.
-/
def order : Value → Value → Ordering
  | .float left, .float right => left.totalCompare right
  | left, right => (left.compare? right).getD (compare left.kindName right.kindName)

/-- The set without values. -/
def empty : ExtremeSet := ⟨[], .empty⟩

/-- The place of a value. -/
def locate (set : ExtremeSet) (value : Value) : TreeSite :=
  set.shape.locate (fun held => order value held.1) set.counts

/-- Hold a value once more. -/
def insert (set : ExtremeSet) (value : Value) : ExtremeSet :=
  let site := set.locate value
  if site.isHeld then
    { set with counts := set.counts.modify site.index fun (held, count) => (held, count + 1) }
  else ⟨set.counts.insertIdx site.index (value, 1), set.shape.insertAt site.index⟩

/-- Hold a value once less; a value that is not held stays so. -/
def erase (set : ExtremeSet) (value : Value) : ExtremeSet :=
  let site := set.locate value
  if site.isHeld then
    if ((set.counts[site.index]?).map Prod.snd).getD 0 ≤ 1 then
      ⟨set.counts.eraseIdx site.index, set.shape.eraseAt site.index⟩
    else { set with counts := set.counts.modify site.index fun (held, count) => (held, count - 1) }
  else set

/-- The least value, or null without one. -/
def least (set : ExtremeSet) : Value := Value.ofOption (set.counts.head?.map Prod.fst)

/-- The greatest value, or null without one. -/
def greatest (set : ExtremeSet) : Value := Value.ofOption (set.counts.getLast?.map Prod.fst)

end ExtremeSet

end EventQuery
