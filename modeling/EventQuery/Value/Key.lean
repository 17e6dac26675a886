import EventQuery.Value.Text

namespace EventQuery

/-!
# Grouping keys

A value is turned into a key whose equality is decidable, so that rows can be grouped by values and
graph vertices be told apart.  Numbers are keyed by their words, with one key for both zeros, and
entities by identity.
-/

mutual

/-- The key of a value. -/
inductive ValueKey where
  | null
  | bool (truth : Bool)
  | int (number : Int64)
  | float (word : Binary64)
  | str (text : String)
  | timestamp (nanos : Int64)
  | duration (nanos : UInt64)
  | array (items : ItemKeys)
  | map (entries : EntryKeys)
  | entity (identity : Identity)

/-- The keys of the elements of a collection. -/
inductive ItemKeys where
  | nil
  | cons (head : ValueKey) (tail : ItemKeys)

/-- The names and keys of the entries of a map, in their order. -/
inductive EntryKeys where
  | nil
  | cons (name : String) (head : ValueKey) (tail : EntryKeys)

end

deriving instance DecidableEq, Repr for ValueKey, ItemKeys, EntryKeys

namespace Value

mutual

/-- The key of a value. -/
def key : Value → ValueKey
  | .null => .null
  | .bool truth => .bool truth
  | .int number => .int number
  | .float number => .float (if number.equals .zero then .zero else number)
  | .str content => .str content
  | .timestamp nanos => .timestamp nanos
  | .duration nanos => .duration nanos
  | .array items => .array (itemKeys items)
  | .map entries => .map (entryKeys entries)
  | .event entity => .entity entity.identity
  | .object entity => .entity entity.identity

/-- The keys of the elements of a collection. -/
def itemKeys : List Value → ItemKeys
  | [] => .nil
  | item :: rest => .cons (key item) (itemKeys rest)

/-- The keys of the entries of a map. -/
def entryKeys : List (String × Value) → EntryKeys
  | [] => .nil
  | (name, value) :: rest => .cons name (key value) (entryKeys rest)

end

end Value

/-- The values that place a row in a group; a statement without grouping has one group of none. -/
structure GroupKey where
  values : List Value
  deriving Repr, Inhabited

namespace GroupKey

/-- The only group of a statement without grouping. -/
def ungrouped : GroupKey := ⟨[]⟩

/-- Whether the key is that of a statement without grouping. -/
def isUngrouped (group : GroupKey) : Bool := group.values.isEmpty

/-- The keys of the values, which decide whether two rows are in one group. -/
def keys (group : GroupKey) : List ValueKey := group.values.map Value.key

/-- Whether two keys name the same group. -/
def same (left right : GroupKey) : Bool := left.keys == right.keys

instance : BEq GroupKey := ⟨same⟩

/-- Keys are equal when the keys of their values are. -/
theorem beq_iff {left right : GroupKey} : (left == right) = true ↔ left.keys = right.keys := by
  change (left.keys == right.keys) = true ↔ left.keys = right.keys
  exact beq_iff_eq

instance : EquivBEq GroupKey where
  rfl := beq_iff.mpr rfl
  symm := fun equal => beq_iff.mpr (beq_iff.mp equal).symm
  trans := fun first second => beq_iff.mpr ((beq_iff.mp first).trans (beq_iff.mp second))

/-- The group in parentheses. -/
def text (group : GroupKey) : String :=
  "(" ++ String.intercalate ", " (group.values.map Value.text) ++ ")"

/-- The group as a list. -/
def listText (group : GroupKey) : String :=
  "[" ++ String.intercalate ", " (group.values.map Value.text) ++ "]"

end GroupKey

end EventQuery
