namespace EventQuery

/-!
# Shapes of search trees

Values in order are found by way of a tree over them.  A leaf covers some neighbouring values; a
branch covers what its children cover, with one value between every two neighbouring children.  The
tree holds no values of its own: its shape says in which order a search looks at the values, and
with that order it decides what is found where the comparison is not a linear order.  Under a linear
order every shape finds the same place.

Nodes have at most eleven values of their own and, but for the topmost one, at least five.
-/

/-- The shape of a search tree. -/
inductive TreeShape where
  /-- A node without children, with the number of its values. -/
  | leaf (count : Nat)
  /-- A node with children and with one value between every two of them. -/
  | branch (children : List TreeShape)
  deriving Repr, Inhabited

/-- A place among values in order: of a value that is held, or between two values. -/
structure TreeSite where
  index : Nat
  isHeld : Bool
  deriving DecidableEq, Repr

namespace TreeSite

/-- The place behind some more values. -/
def shift (site : TreeSite) (distance : Nat) : TreeSite :=
  { site with index := site.index + distance }

end TreeSite

namespace TreeShape

/-- The shape over no values. -/
def empty : TreeShape := .leaf 0

/-- The greatest number of values that a node has of its own. -/
def capacity : Nat := 11

/-- The least number of values that a node has of its own, the topmost one apart. -/
def least : Nat := 5

/-- The number of values that a node has of its own. -/
def ownCount : TreeShape → Nat
  | leaf count => count
  | branch children => children.length - 1

mutual

/-- The number of values that a tree covers. -/
def size : TreeShape → Nat
  | leaf count => count
  | branch children => sizeAmong children

/-- The number of values that children cover, with the values between them. -/
def sizeAmong : List TreeShape → Nat
  | [] => 0
  | [child] => child.size
  | child :: rest => child.size + 1 + sizeAmong rest

end

/-! ## Searching -/

section Search

variable {α : Type}

/-- Look at values one after the other, until one is not behind the place that is looked for. -/
def scan (compareTo : α → Ordering) : List α → TreeSite
  | [] => ⟨0, false⟩
  | value :: rest =>
      match compareTo value with
      | .lt => ⟨0, false⟩
      | .eq => ⟨0, true⟩
      | .gt => (scan compareTo rest).shift 1

mutual

/-- Look for a place among values by way of a tree over them. -/
def locate (compareTo : α → Ordering) : TreeShape → List α → TreeSite
  | leaf _, values => scan compareTo values
  | branch children, values => locateAmong compareTo children values

/-- Look at the values between children, and then into the child before the first greater one. -/
def locateAmong (compareTo : α → Ordering) : List TreeShape → List α → TreeSite
  | [], values => scan compareTo values
  | [child], values => child.locate compareTo values
  | child :: rest, values =>
      match values.drop child.size with
      | [] => child.locate compareTo values
      | between :: behind =>
          match compareTo between with
          | .lt => child.locate compareTo (values.take child.size)
          | .eq => ⟨child.size, true⟩
          | .gt => (locateAmong compareTo rest behind).shift (child.size + 1)

end

end Search

/-! ## Growing -/

/-- The number of values left of the middle when a full node takes one more value at a place. -/
def leftCount (index : Nat) : Nat := if index < least || index = least + 1 then least else least + 1

mutual

/-- A tree with one more value at a place.  A full node becomes two with a value between them. -/
def grow : TreeShape → Nat → List TreeShape
  | leaf count, index =>
      if count < capacity then [leaf (count + 1)]
      else [leaf (leftCount index), leaf (count - leftCount index)]
  | branch children, index =>
      let (grown, changed) := growAmong children index
      if grown.length ≤ capacity + 1 then [branch grown]
      else
        let left := leftCount changed + 1
        [branch (grown.take left), branch (grown.drop left)]

/-- Children with one more value at a place, and the number of the child that took it. -/
def growAmong : List TreeShape → Nat → List TreeShape × Nat
  | [], _ => ([], 0)
  | child :: rest, index =>
      if index ≤ child.size then (child.grow index ++ rest, 0)
      else
        let (grown, changed) := growAmong rest (index - child.size - 1)
        (child :: grown, changed + 1)

end

/-- The tree over values of which one was put in at a place. -/
def insertAt (shape : TreeShape) (index : Nat) : TreeShape :=
  match shape.grow index with
  | [single] => single
  | parts => branch parts

/-! ## Shrinking -/

/-- Two neighbours and the value between them as one node. -/
def merge : TreeShape → TreeShape → TreeShape
  | leaf left, leaf right => leaf (left + 1 + right)
  | branch left, branch right => branch (left ++ right)
  | left, right => branch [left, right]

/-- Two neighbours, where the left one gets a value from the right one. -/
def moveLeft : TreeShape → TreeShape → List TreeShape
  | leaf left, leaf right => [leaf (left + 1), leaf (right - 1)]
  | branch left, branch right => [branch (left ++ right.take 1), branch (right.drop 1)]
  | left, right => [left, right]

/-- Two neighbours, where the right one gets a value from the left one. -/
def moveRight : TreeShape → TreeShape → List TreeShape
  | leaf left, leaf right => [leaf (left - 1), leaf (right + 1)]
  | branch left, branch right =>
      [branch left.dropLast, branch (left.getLast?.toList ++ right)]
  | left, right => [left, right]

/-- Two neighbours of which one has too few values: one node if it is not too large, else two. -/
def balance (left right : TreeShape) : List TreeShape :=
  if left.ownCount + 1 + right.ownCount ≤ capacity then [left.merge right]
  else if left.ownCount < least then moveLeft left right
  else moveRight left right

/-- Children of which the one at a number may have too few values: its left neighbour mends that. -/
def mend (children : List TreeShape) (changed : Nat) : List TreeShape :=
  match children.drop (changed - 1) with
  | left :: right :: rest =>
      let sparse := if changed = 0 then left else right
      if sparse.ownCount < least then
        children.take (changed - 1) ++ balance left right ++ rest
      else children
  | _ => children

mutual

/-- A tree without the value at a place.  A value between children is replaced from a leaf. -/
def shrink : TreeShape → Nat → TreeShape
  | leaf count, _ => leaf (count - 1)
  | branch children, index =>
      let (shrunk, changed) := shrinkAmong children index
      branch (mend shrunk changed)

/-- Children without the value at a place, and the number of the child that gave one. -/
def shrinkAmong : List TreeShape → Nat → List TreeShape × Nat
  | [], _ => ([], 0)
  | child :: rest, index =>
      if index ≤ child.size then (child.shrink (min index (child.size - 1)) :: rest, 0)
      else
        let (shrunk, changed) := shrinkAmong rest (index - child.size - 1)
        (child :: shrunk, changed + 1)

end

/-- The tree over values of which one was taken out at a place. -/
def eraseAt (shape : TreeShape) (index : Nat) : TreeShape :=
  match shape.shrink index with
  | branch [only] => only
  | shrunk => shrunk

end TreeShape

end EventQuery
