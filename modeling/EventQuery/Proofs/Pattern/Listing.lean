import EventQuery.Pattern.Compile
import EventQuery.Proofs.Pattern.Tags

namespace EventQuery

/-!
# The listing of a pattern

A pattern is compiled into a table in which numbers are held open until the operands behind them are
compiled.  `CompiledPattern.compileFrom` puts the finished nodes in order at once, and they are the
same: in the end no number is open.

A compiled pattern lists the operators and leaves of the pattern as written, an operator before its
operands.  `CompiledPattern.Listed` says so for the part of the list that starts at a number, by
recursion on the pattern.  What a node table promises about one number and the numbers of its
operands follows from it, and is all that the running engine relies on.

Of a pattern alone, without its compilation, the parts in the same order are a list as well.  The
parts of each part stand together in it.
-/

/-! ## Segments of a list -/

section Prefix

variable {Item : Type} {items front behind : List Item} {item : Item} {number : Nat}

/-- What stands in a list from a number on begins at that number. -/
theorem getElem?_of_prefix_drop
    (segment : item :: behind <+: items.drop number) :
    items[number]? = some item := by
  obtain ⟨trailing, shape⟩ := segment
  have first := congrArg List.head? shape
  rw [List.head?_drop] at first
  exact first.symm

theorem tail_prefix_drop
    (segment : item :: behind <+: items.drop number) :
    behind <+: items.drop (number + 1) := by
  obtain ⟨trailing, shape⟩ := segment
  refine ⟨trailing, ?_⟩
  rw [← List.tail_drop, ← shape]
  rfl

theorem append_prefix_drop
    (segment : front ++ behind <+: items.drop number) :
    front <+: items.drop number ∧ behind <+: items.drop (number + front.length) := by
  obtain ⟨trailing, shape⟩ := segment
  refine ⟨⟨behind ++ trailing, by rw [← shape, List.append_assoc]⟩, trailing, ?_⟩
  rw [← List.drop_drop, ← shape, List.append_assoc, List.drop_left]

end Prefix

/-! ## The parts of a pattern -/

namespace PatternExpr

mutual

/-- A pattern and all patterns inside it as written, an operator before its operands. -/
def parts : PatternExpr → List PatternExpr
  | .filter spec => [.filter spec]
  | .every child => .every child :: parts child
  | .sequence left right => .sequence left right :: (parts left ++ parts right)
  | .alternation children => .alternation children :: partsOfAll children
  | .conjunction children => .conjunction children :: partsOfAll children
  | .repetition child least most => .repetition child least most :: parts child
  | .negation child => .negation child :: parts child
  | .within child duration => .within child duration :: parts child
  | .guarded child guard => .guarded child guard :: parts child
  | .timer duration => [.timer duration]

/-- The parts of several patterns, one after another. -/
def partsOfAll : List PatternExpr → List PatternExpr
  | [] => []
  | child :: rest => parts child ++ partsOfAll rest

end

/-- The parts of a pattern are the pattern itself and the parts of its operands. -/
theorem parts_eq
    (expr : PatternExpr) :
    expr.parts = expr :: partsOfAll expr.operands := by
  cases expr <;> simp [parts, operands, partsOfAll]

private theorem length_partsOfAll
    {children : List PatternExpr}
    (inChild : ∀ child ∈ children, child.parts.length = child.size) :
    (partsOfAll children).length = totalSize children := by
  induction children with
  | nil => rfl
  | cons child rest inductionHypothesis =>
      rw [List.forall_mem_cons] at inChild
      rw [partsOfAll, totalSize, List.length_append, inChild.1, inductionHypothesis inChild.2]

/-- A pattern has as many parts as operators and leaves. -/
theorem length_parts
    (expr : PatternExpr) :
    expr.parts.length = expr.size := by
  induction expr using operandInduction with
  | step expr inductionHypothesis =>
      rw [parts_eq, size_eq, List.length_cons, length_partsOfAll inductionHypothesis]

private theorem parts_prefix_ofAll
    {children : List PatternExpr}
    (inChild : ∀ child ∈ children, ∀ {part : PatternExpr} {number : Nat},
      child.parts[number]? = some part → part.parts <+: child.parts.drop number)
    {number : Nat}
    {part : PatternExpr}
    (atNumber : (partsOfAll children)[number]? = some part) :
    part.parts <+: (partsOfAll children).drop number := by
  induction children generalizing number with
  | nil => cases atNumber
  | cons child rest inductionHypothesis =>
      rw [List.forall_mem_cons] at inChild
      rw [partsOfAll] at atNumber ⊢
      rcases Nat.lt_or_ge number child.parts.length with inFirst | behind
      · rw [List.getElem?_append_left inFirst] at atNumber
        rw [List.drop_append_of_le_length (Nat.le_of_lt inFirst)]
        exact (inChild.1 atNumber).trans (List.prefix_append _ _)
      · rw [List.getElem?_append_right behind] at atNumber
        rw [List.drop_append, List.drop_eq_nil_of_le behind, List.nil_append]
        exact inductionHypothesis inChild.2 atNumber

/-- The parts of a part stand together among the parts of the whole. -/
theorem parts_prefix_drop
    {expr part : PatternExpr}
    {number : Nat}
    (atNumber : expr.parts[number]? = some part) :
    part.parts <+: expr.parts.drop number := by
  induction expr using operandInduction generalizing number part with
  | step expr inductionHypothesis =>
      cases number with
      | zero =>
          rw [parts_eq, List.getElem?_cons_zero, Option.some.injEq] at atNumber
          subst atNumber
          exact List.prefix_refl _
      | succ number =>
          rw [parts_eq, List.getElem?_cons_succ] at atNumber
          rw [parts_eq expr, List.drop_succ_cons]
          exact parts_prefix_ofAll inductionHypothesis atNumber

/-- Where the parts of several patterns stand together, their numbers are those of the patterns. -/
theorem map_numbersFrom
    {items children : List PatternExpr}
    {number : Nat}
    (segment : partsOfAll children <+: items.drop number) :
    (numbersFrom number children).map (items[·]?) = children.map some := by
  induction children generalizing number with
  | nil => rfl
  | cons child rest inductionHypothesis =>
      rw [partsOfAll] at segment
      obtain ⟨first, later⟩ := append_prefix_drop segment
      rw [length_parts] at later
      rw [parts_eq] at first
      rw [numbersFrom, List.map_cons, List.map_cons, getElem?_of_prefix_drop first,
        inductionHypothesis later]

end PatternExpr

/-! ## Compiled nodes as a list -/

namespace CompiledPattern

open PatternExpr

mutual

/--
The nodes of a pattern of a given number inside the repetitions around it.  The node of an operator
stands before those of its operands from the start.
-/
def compileFrom (schema : Schema) (tags : List Tag) (number : Nat) (enclosing : List Nat) :
    PatternExpr → Except BindingError (List PatternNode)
  | .filter spec => do
      let node ← compileFilter schema tags enclosing spec
      return [node]
  | .every child => do
      let nodes ← compileFrom schema tags (number + 1) enclosing child
      return .every (number + 1) :: nodes
  | .sequence left right => do
      let lefts ← compileFrom schema tags (number + 1) enclosing left
      let second := number + 1 + lefts.length
      let rights ← compileFrom schema tags second enclosing right
      return .sequence (number + 1) second :: (lefts ++ rights)
  | .alternation children => do
      checkOperands "or" children
      let (numbers, nodes) ← compileAllFrom schema tags (number + 1) enclosing children
      return .alternation numbers :: nodes
  | .conjunction children => do
      checkOperands "and" children
      let (numbers, nodes) ← compileAllFrom schema tags (number + 1) enclosing children
      return .conjunction numbers :: nodes
  | .repetition child least most => do
      checkBounds least most
      let nodes ← compileFrom schema tags (number + 1) (enclosing ++ [number]) child
      return .repetition (number + 1) least most (innerSlots tags number) :: nodes
  | .negation child => do
      let nodes ← compileFrom schema tags (number + 1) enclosing child
      return .negation (number + 1) :: nodes
  | .within child duration => do
      let nodes ← compileFrom schema tags (number + 1) enclosing child
      return .within (number + 1) (min duration longestDuration) child.isNegation :: nodes
  | .guarded child guard => do
      let bound ← bindCondition (guardScope schema tags enclosing) guard
      let nodes ← compileFrom schema tags (number + 1) enclosing child
      return .guarded (number + 1) bound :: nodes
  | .timer duration => .ok [.timer (min duration longestDuration)]

/-- The numbers and nodes of several patterns, one after another from a given number on. -/
def compileAllFrom (schema : Schema) (tags : List Tag) (number : Nat) (enclosing : List Nat) :
    List PatternExpr → Except BindingError (List Nat × List PatternNode)
  | [] => .ok ([], [])
  | child :: rest => do
      let nodes ← compileFrom schema tags number enclosing child
      let (numbers, others) ← compileAllFrom schema tags (number + nodes.length) enclosing rest
      return (number :: numbers, nodes ++ others)

end

section Table

variable {schema : Schema} {tags : List Tag}

/-- The number that was held open in front of some nodes is filled. -/
private theorem fill_eq
    {table after : NodeTable}
    {nodes : List PatternNode}
    (behind : after = table ++ [none] ++ nodes.map some)
    (node : PatternNode) :
    fill table after node = (table.length, table ++ (node :: nodes).map some) := by
  rw [behind, fill, List.append_assoc, List.set_append_right _ _ (Nat.le_refl _), Nat.sub_self]
  rfl

private theorem length_append_none
    (table : NodeTable) :
    (table ++ [none]).length = table.length + 1 := by
  rw [List.length_append, List.length_singleton]

/-- An operator with one operand is filled in when the operand is compiled. -/
private theorem fill_operand
    (table : NodeTable)
    (operator : Nat → PatternNode)
    (compiled : Except BindingError (List PatternNode)) :
    (do
        let (operand, after) ← compiled.map fun nodes =>
          (table.length + 1, table ++ [none] ++ nodes.map some)
        return fill table after (operator operand)) =
      (do
        let nodes ← compiled
        return operator (table.length + 1) :: nodes).map fun nodes : List PatternNode =>
          (table.length, table ++ nodes.map some) := by
  cases compiled with
  | error problem => rfl
  | ok nodes => exact congrArg Except.ok (fill_eq rfl _)

/-- An operator with any number of operands is filled in when these are compiled. -/
private theorem fill_operands
    (table : NodeTable)
    (operator : List Nat → PatternNode)
    (compiled : Except BindingError (List Nat × List PatternNode)) :
    (do
        let (operands, after) ← compiled.map fun compiled =>
          (compiled.1, table ++ [none] ++ compiled.2.map some)
        return fill table after (operator operands)) =
      (do
        let (numbers, nodes) ← compiled
        return operator numbers :: nodes).map fun nodes : List PatternNode =>
          (table.length, table ++ nodes.map some) := by
  cases compiled with
  | error problem => rfl
  | ok compiled => exact congrArg Except.ok (fill_eq rfl _)

mutual

/-- A pattern takes the next number of a table, and its nodes are put behind those already there. -/
private theorem compileInto_eq
    (enclosing : List Nat)
    (table : NodeTable) :
    (expr : PatternExpr) →
      compileInto schema tags enclosing table expr =
        (compileFrom schema tags table.length enclosing expr).map fun nodes =>
          (table.length, table ++ nodes.map some)
  | .filter spec => by
      rw [compileInto, compileFrom]
      cases compileFilter schema tags enclosing spec with
      | error problem => rfl
      | ok node => exact congrArg Except.ok (fill_eq (List.append_nil _).symm node)
  | .every child => by
      rw [compileInto, compileFrom, compileInto_eq enclosing (table ++ [none]) child,
        length_append_none]
      exact fill_operand table .every _
  | .sequence left right => by
      rw [compileInto, compileFrom, compileInto_eq enclosing (table ++ [none]) left,
        length_append_none]
      cases compileFrom schema tags (table.length + 1) enclosing left with
      | error problem => rfl
      | ok lefts =>
          simp only [Except.map, bind, Except.bind]
          rw [compileInto_eq enclosing (table ++ [none] ++ lefts.map some) right,
            List.length_append, List.length_map, length_append_none]
          cases compileFrom schema tags (table.length + 1 + lefts.length) enclosing right with
          | error problem => rfl
          | ok rights =>
              refine congrArg Except.ok (fill_eq ?_ _)
              simp only [List.map_append, List.append_assoc]
  | .alternation children => by
      rw [compileInto, compileFrom, compileAllInto_eq enclosing (table ++ [none]) children,
        length_append_none]
      cases checkOperands "or" children with
      | error problem => rfl
      | ok checked => exact fill_operands table .alternation _
  | .conjunction children => by
      rw [compileInto, compileFrom, compileAllInto_eq enclosing (table ++ [none]) children,
        length_append_none]
      cases checkOperands "and" children with
      | error problem => rfl
      | ok checked => exact fill_operands table .conjunction _
  | .repetition child least most => by
      rw [compileInto, compileFrom,
        compileInto_eq (enclosing ++ [table.length]) (table ++ [none]) child, length_append_none]
      cases checkBounds least most with
      | error problem => rfl
      | ok checked => exact fill_operand table (.repetition · least most _) _
  | .negation child => by
      rw [compileInto, compileFrom, compileInto_eq enclosing (table ++ [none]) child,
        length_append_none]
      exact fill_operand table .negation _
  | .within child duration => by
      rw [compileInto, compileFrom, compileInto_eq enclosing (table ++ [none]) child,
        length_append_none]
      exact fill_operand table (.within · _ _) _
  | .guarded child guard => by
      rw [compileInto, compileFrom, compileInto_eq enclosing (table ++ [none]) child,
        length_append_none]
      cases bindCondition (guardScope schema tags enclosing) guard with
      | error problem => rfl
      | ok bound => exact fill_operand table (.guarded · bound) _
  | .timer duration => by
      rw [compileInto, compileFrom]
      exact congrArg Except.ok (fill_eq (List.append_nil _).symm _)

private theorem compileAllInto_eq
    (enclosing : List Nat)
    (table : NodeTable) :
    (children : List PatternExpr) →
      compileAllInto schema tags enclosing table children =
        (compileAllFrom schema tags table.length enclosing children).map fun compiled =>
          (compiled.1, table ++ compiled.2.map some)
  | [] => by
      rw [compileAllInto, compileAllFrom, Except.map, List.map_nil, List.append_nil]
  | child :: rest => by
      rw [compileAllInto, compileAllFrom, compileInto_eq enclosing table child]
      cases compileFrom schema tags table.length enclosing child with
      | error problem => rfl
      | ok nodes =>
          simp only [Except.map, bind, Except.bind]
          rw [compileAllInto_eq enclosing (table ++ nodes.map some) rest, List.length_append,
            List.length_map]
          cases compileAllFrom schema tags (table.length + nodes.length) enclosing rest with
          | error problem => rfl
          | ok compiled =>
              simp only [Except.map, pure, Except.pure, List.map_append, List.append_assoc]

end

private theorem mapM_filled
    (nodes : List PatternNode) :
    (nodes.map some).mapM filled = .ok nodes := by
  induction nodes with
  | nil => rfl
  | cons node rest inductionHypothesis =>
      rw [List.map_cons, List.mapM_cons, inductionHypothesis]
      rfl

/-- No number is left open, so a pattern compiles when its tags and its nodes are in order. -/
theorem compile_eq
    (expr : PatternExpr) :
    compile schema expr = do
      let tags ← Tag.collectFrom schema 0 [] [] expr
      let nodes ← compileFrom schema tags 0 [] expr
      return ⟨nodes, tags⟩ := by
  rw [compile, Tag.collect_eq]
  cases Tag.collectFrom schema 0 [] [] expr with
  | error problem => rfl
  | ok tags =>
      simp only [Except.map, bind, Except.bind]
      rw [compileInto_eq, List.length_nil]
      cases compileFrom schema tags 0 [] expr with
      | error problem => rfl
      | ok nodes =>
          simp only [Except.map, List.nil_append, mapM_filled]

end Table

/-! ## Listings -/

mutual

/-- The nodes from a number on are those of a pattern. -/
def Listed (compiled : CompiledPattern) (number : Nat) : PatternExpr → Prop
  | .filter spec =>
      ∃ predicate, compiled.nodes[number]? = some
        (.filter spec.eventType ((spec.tag.bind (Tag.find? compiled.tags)).map Tag.slot) predicate)
  | .every child =>
      compiled.nodes[number]? = some (.every (number + 1)) ∧ Listed compiled (number + 1) child
  | .sequence left right =>
      compiled.nodes[number]? = some (.sequence (number + 1) (number + 1 + left.size)) ∧
        Listed compiled (number + 1) left ∧ Listed compiled (number + 1 + left.size) right
  | .alternation children =>
      children ≠ [] ∧
        compiled.nodes[number]? = some (.alternation (numbersFrom (number + 1) children)) ∧
          AllListed compiled (number + 1) children
  | .conjunction children =>
      children ≠ [] ∧
        compiled.nodes[number]? = some (.conjunction (numbersFrom (number + 1) children)) ∧
          AllListed compiled (number + 1) children
  | .repetition child least most =>
      compiled.nodes[number]? =
          some (.repetition (number + 1) least most (innerSlots compiled.tags number)) ∧
        Listed compiled (number + 1) child
  | .negation child =>
      compiled.nodes[number]? = some (.negation (number + 1)) ∧ Listed compiled (number + 1) child
  | .within child duration =>
      compiled.nodes[number]? =
          some (.within (number + 1) (min duration longestDuration) child.isNegation) ∧
        Listed compiled (number + 1) child
  | .guarded child _ =>
      (∃ guard, compiled.nodes[number]? = some (.guarded (number + 1) guard)) ∧
        Listed compiled (number + 1) child
  | .timer duration =>
      compiled.nodes[number]? = some (.timer (min duration longestDuration))

/-- The nodes from a number on are those of several patterns, one after another. -/
def AllListed (compiled : CompiledPattern) (number : Nat) : List PatternExpr → Prop
  | [] => True
  | child :: rest => Listed compiled number child ∧ AllListed compiled (number + child.size) rest

end

section Segment

variable {compiled : CompiledPattern} {number : Nat}

/-- Some nodes stand in the list from a number on. -/
def Segment (compiled : CompiledPattern) (number : Nat) (nodes : List PatternNode) : Prop :=
  nodes <+: compiled.nodes.drop number

private theorem Segment.head
    {node : PatternNode}
    {rest : List PatternNode}
    (segment : Segment compiled number (node :: rest)) :
    compiled.nodes[number]? = some node :=
  getElem?_of_prefix_drop segment

private theorem Segment.tail
    {node : PatternNode}
    {rest : List PatternNode}
    (segment : Segment compiled number (node :: rest)) :
    Segment compiled (number + 1) rest :=
  tail_prefix_drop segment

private theorem Segment.append
    {first second : List PatternNode}
    (segment : Segment compiled number (first ++ second)) :
    Segment compiled number first ∧ Segment compiled (number + first.length) second :=
  append_prefix_drop segment

end Segment

private theorem operands_of_checkOperands
    {operator : String}
    {children : List PatternExpr}
    (checks : checkOperands operator children = .ok ()) :
    children ≠ [] := by
  intro none
  subst none
  simp [checkOperands] at checks

mutual

/-- The nodes of a pattern are as many as its operators and leaves. -/
private theorem length_compileFrom
    {schema : Schema}
    {tags : List Tag}
    {number : Nat}
    {enclosing : List Nat}
    {nodes : List PatternNode} :
    (expr : PatternExpr) →
      compileFrom schema tags number enclosing expr = .ok nodes →
        nodes.length = expr.size
  | .filter spec, success => by
      rw [compileFrom] at success
      obtain ⟨node, _, result⟩ := ok_of_bind success
      cases result
      rfl
  | .every child, success => by
      rw [compileFrom] at success
      obtain ⟨inner, compiles, result⟩ := ok_of_bind success
      cases result
      simp [size, length_compileFrom child compiles]
  | .sequence left right, success => by
      rw [compileFrom] at success
      obtain ⟨lefts, compilesLeft, afterLeft⟩ := ok_of_bind success
      obtain ⟨rights, compilesRight, result⟩ := ok_of_bind afterLeft
      cases result
      simp [size, length_compileFrom left compilesLeft, length_compileFrom right compilesRight]
  | .alternation children, success => by
      rw [compileFrom] at success
      obtain ⟨_, _, checked⟩ := ok_of_bind success
      obtain ⟨⟨numbers, inner⟩, compiles, result⟩ := ok_of_bind checked
      cases result
      simp [size, length_compileAllFrom children compiles]
  | .conjunction children, success => by
      rw [compileFrom] at success
      obtain ⟨_, _, checked⟩ := ok_of_bind success
      obtain ⟨⟨numbers, inner⟩, compiles, result⟩ := ok_of_bind checked
      cases result
      simp [size, length_compileAllFrom children compiles]
  | .repetition child least most, success => by
      rw [compileFrom] at success
      obtain ⟨_, _, checked⟩ := ok_of_bind success
      obtain ⟨inner, compiles, result⟩ := ok_of_bind checked
      cases result
      simp [size, length_compileFrom child compiles]
  | .negation child, success => by
      rw [compileFrom] at success
      obtain ⟨inner, compiles, result⟩ := ok_of_bind success
      cases result
      simp [size, length_compileFrom child compiles]
  | .within child duration, success => by
      rw [compileFrom] at success
      obtain ⟨inner, compiles, result⟩ := ok_of_bind success
      cases result
      simp [size, length_compileFrom child compiles]
  | .guarded child guard, success => by
      rw [compileFrom] at success
      obtain ⟨bound, _, binds⟩ := ok_of_bind success
      obtain ⟨inner, compiles, result⟩ := ok_of_bind binds
      cases result
      simp [size, length_compileFrom child compiles]
  | .timer duration, success => by
      rw [compileFrom] at success
      cases success
      rfl

private theorem length_compileAllFrom
    {schema : Schema}
    {tags : List Tag}
    {number : Nat}
    {enclosing numbers : List Nat}
    {nodes : List PatternNode} :
    (children : List PatternExpr) →
      compileAllFrom schema tags number enclosing children = .ok (numbers, nodes) →
        nodes.length = totalSize children
  | [], success => by
      rw [compileAllFrom] at success
      cases success
      rfl
  | child :: rest, success => by
      rw [compileAllFrom] at success
      obtain ⟨inner, compiles, afterFirst⟩ := ok_of_bind success
      obtain ⟨⟨later, others⟩, compilesRest, result⟩ := ok_of_bind afterFirst
      cases result
      simp [totalSize, length_compileFrom child compiles, length_compileAllFrom rest compilesRest]

end

mutual

/-- The nodes of a pattern list it wherever they stand. -/
private theorem listed_of_compileFrom
    {schema : Schema}
    {compiled : CompiledPattern}
    {number : Nat}
    {enclosing : List Nat}
    {nodes : List PatternNode} :
    (expr : PatternExpr) →
      compileFrom schema compiled.tags number enclosing expr = .ok nodes →
        Segment compiled number nodes →
          Listed compiled number expr
  | .filter spec, success, segment => by
      rw [compileFrom, compileFilter] at success
      obtain ⟨node, filters, result⟩ := ok_of_bind success
      cases result
      rw [Listed, segment.head]
      cases predicate : spec.predicate with
      | none =>
          rw [predicate] at filters
          cases filters
          exact ⟨none, rfl⟩
      | some condition =>
          rw [predicate] at filters
          obtain ⟨bound, _, made⟩ := ok_of_bind filters
          cases made
          exact ⟨some bound, rfl⟩
  | .every child, success, segment => by
      rw [compileFrom] at success
      obtain ⟨inner, compiles, result⟩ := ok_of_bind success
      cases result
      rw [Listed]
      exact ⟨segment.head, listed_of_compileFrom child compiles segment.tail⟩
  | .sequence left right, success, segment => by
      rw [compileFrom] at success
      obtain ⟨lefts, compilesLeft, afterLeft⟩ := ok_of_bind success
      obtain ⟨rights, compilesRight, result⟩ := ok_of_bind afterLeft
      cases result
      obtain ⟨leftSegment, rightSegment⟩ := segment.tail.append
      have leftLength := length_compileFrom left compilesLeft
      rw [leftLength] at compilesRight rightSegment
      rw [Listed, segment.head, leftLength]
      exact ⟨rfl, listed_of_compileFrom left compilesLeft leftSegment,
        listed_of_compileFrom right compilesRight rightSegment⟩
  | .alternation children, success, segment => by
      rw [compileFrom] at success
      obtain ⟨_, checks, checked⟩ := ok_of_bind success
      obtain ⟨⟨numbers, inner⟩, compiles, result⟩ := ok_of_bind checked
      cases result
      obtain ⟨sameNumbers, listed⟩ := allListed_of_compileAllFrom children compiles segment.tail
      rw [Listed, segment.head, sameNumbers]
      exact ⟨operands_of_checkOperands checks, rfl, listed⟩
  | .conjunction children, success, segment => by
      rw [compileFrom] at success
      obtain ⟨_, checks, checked⟩ := ok_of_bind success
      obtain ⟨⟨numbers, inner⟩, compiles, result⟩ := ok_of_bind checked
      cases result
      obtain ⟨sameNumbers, listed⟩ := allListed_of_compileAllFrom children compiles segment.tail
      rw [Listed, segment.head, sameNumbers]
      exact ⟨operands_of_checkOperands checks, rfl, listed⟩
  | .repetition child least most, success, segment => by
      rw [compileFrom] at success
      obtain ⟨_, _, checked⟩ := ok_of_bind success
      obtain ⟨inner, compiles, result⟩ := ok_of_bind checked
      cases result
      rw [Listed]
      exact ⟨segment.head, listed_of_compileFrom child compiles segment.tail⟩
  | .negation child, success, segment => by
      rw [compileFrom] at success
      obtain ⟨inner, compiles, result⟩ := ok_of_bind success
      cases result
      rw [Listed]
      exact ⟨segment.head, listed_of_compileFrom child compiles segment.tail⟩
  | .within child duration, success, segment => by
      rw [compileFrom] at success
      obtain ⟨inner, compiles, result⟩ := ok_of_bind success
      cases result
      rw [Listed]
      exact ⟨segment.head, listed_of_compileFrom child compiles segment.tail⟩
  | .guarded child guard, success, segment => by
      rw [compileFrom] at success
      obtain ⟨bound, _, binds⟩ := ok_of_bind success
      obtain ⟨inner, compiles, result⟩ := ok_of_bind binds
      cases result
      rw [Listed]
      exact ⟨⟨bound, segment.head⟩, listed_of_compileFrom child compiles segment.tail⟩
  | .timer duration, success, segment => by
      rw [compileFrom] at success
      cases success
      rw [Listed]
      exact segment.head

private theorem allListed_of_compileAllFrom
    {schema : Schema}
    {compiled : CompiledPattern}
    {number : Nat}
    {enclosing numbers : List Nat}
    {nodes : List PatternNode} :
    (children : List PatternExpr) →
      compileAllFrom schema compiled.tags number enclosing children = .ok (numbers, nodes) →
        Segment compiled number nodes →
          numbers = numbersFrom number children ∧ AllListed compiled number children
  | [], success, _ => by
      rw [compileAllFrom] at success
      cases success
      exact ⟨rfl, by rw [AllListed]; trivial⟩
  | child :: rest, success, segment => by
      rw [compileAllFrom] at success
      obtain ⟨inner, compiles, afterFirst⟩ := ok_of_bind success
      obtain ⟨⟨later, others⟩, compilesRest, result⟩ := ok_of_bind afterFirst
      cases result
      obtain ⟨firstSegment, restSegment⟩ := segment.append
      have firstLength := length_compileFrom child compiles
      rw [firstLength] at compilesRest restSegment
      obtain ⟨sameLater, restListed⟩ :=
        allListed_of_compileAllFrom rest compilesRest restSegment
      rw [AllListed, numbersFrom, sameLater]
      exact ⟨rfl, listed_of_compileFrom child compiles firstSegment, restListed⟩

end

/-- A compiled pattern is the listing of the pattern as written, and nothing else. -/
theorem listed_of_compile
    {schema : Schema}
    {expr : PatternExpr}
    {compiled : CompiledPattern}
    (success : compile schema expr = .ok compiled) :
    Listed compiled 0 expr ∧ compiled.nodes.length = expr.size := by
  rw [compile_eq] at success
  obtain ⟨tags, _, afterTags⟩ := ok_of_bind success
  obtain ⟨nodes, compiles, result⟩ := ok_of_bind afterTags
  cases result
  have listed : Listed ⟨nodes, tags⟩ 0 expr :=
    listed_of_compileFrom expr compiles (List.prefix_refl nodes)
  exact ⟨listed, length_compileFrom expr compiles⟩

/-- The tags of a compiled pattern are those of the pattern as written. -/
theorem collectFrom_of_compile
    {schema : Schema}
    {expr : PatternExpr}
    {compiled : CompiledPattern}
    (success : compile schema expr = .ok compiled) :
    Tag.collectFrom schema 0 [] [] expr = .ok compiled.tags := by
  rw [compile_eq] at success
  obtain ⟨tags, collects, afterTags⟩ := ok_of_bind success
  obtain ⟨nodes, _, result⟩ := ok_of_bind afterTags
  cases result
  exact collects

/-- The walk for the tags of a pattern ends at the number of its nodes. -/
theorem collect_of_compile
    {schema : Schema}
    {expr : PatternExpr}
    {compiled : CompiledPattern}
    (success : compile schema expr = .ok compiled) :
    Tag.collect schema 0 [] [] expr = .ok (compiled.tags, compiled.nodes.length) := by
  rw [Tag.collect_eq, collectFrom_of_compile success, (listed_of_compile success).2, Nat.zero_add]
  rfl

end CompiledPattern

end EventQuery
