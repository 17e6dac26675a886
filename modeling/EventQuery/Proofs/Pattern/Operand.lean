import EventQuery.Proofs.Pattern.Casing
import EventQuery.Proofs.Pattern.Listing

namespace EventQuery

/-!
# Patterns as operands

A pattern that is the operand of another is compiled to the same nodes and tags as on its own, with
later numbers.  Streams, scopes and inner slots only ask which numbers are the same, so that
predicates and guards are bound alike.
-/

namespace Tag

variable {places : Nat} {schema : Schema}

theorem contains_later (numbers : List Nat) (number : Nat) :
    (numbers.map (· + places)).contains (number + places) = numbers.contains number := by
  rw [Bool.eq_iff_iff]
  simp

theorem streamFrom_later (tag : Tag) (enclosing : List Nat) :
    (tag.later places).streamFrom (enclosing.map (· + places)) = tag.streamFrom enclosing := by
  have same : (tag.later places).indexedFrom (enclosing.map (· + places)) =
      tag.indexedFrom enclosing := by
    rw [indexedFrom, later, List.any_map, indexedFrom]
    refine congrArg _ (funext fun repetition => ?_)
    rw [Function.comp_apply, contains_later]
  rw [streamFrom, same, streamFrom]
  rfl

theorem find?_later (tags : List Tag) (name : String) :
    Tag.find? (tags.map (Tag.later places)) name =
      (Tag.find? tags name).map (Tag.later places) := by
  rw [Tag.find?, List.find?_map, Tag.find?]
  rfl

theorem declare_later (tags : List Tag) (name eventType : String) (enclosing : List Nat) :
    Tag.declare (tags.map (Tag.later places)) name eventType (enclosing.map (· + places)) =
      (Tag.declare tags name eventType enclosing).map (List.map (Tag.later places)) := by
  rw [Tag.declare, find?_later, Tag.declare]
  cases Tag.find? tags name with
  | none =>
      simp only [Option.map_none, List.length_map, Except.map, List.map_append, List.map_cons,
        List.map_nil]
      rfl
  | some first =>
      simp only [Option.map_some, Tag.later]
      split <;> rfl

mutual

/-- The tags of a pattern with later numbers are its tags with later numbers. -/
theorem collectFrom_later (number : Nat) (enclosing : List Nat) (known : List Tag) :
    (expr : PatternExpr) →
      collectFrom schema (number + places) (enclosing.map (· + places))
          (known.map (Tag.later places)) expr =
        (collectFrom schema number enclosing known expr).map (List.map (Tag.later places))
  | .filter spec => by
      rw [collectFrom, collectFrom]
      cases schema.requireEventType spec.eventType with
      | error fault => rfl
      | ok shape =>
          cases spec.tag with
          | none => rfl
          | some name => exact declare_later known name spec.eventType enclosing
  | .every child => by
      rw [collectFrom, collectFrom, Nat.add_right_comm]
      exact collectFrom_later (number + 1) enclosing known child
  | .sequence left right => by
      rw [collectFrom, collectFrom, Nat.add_right_comm,
        collectFrom_later (number + 1) enclosing known left]
      cases collectFrom schema (number + 1) enclosing known left with
      | error fault => rfl
      | ok tags =>
          have sameNumber : number + 1 + places + left.size = number + 1 + left.size + places := by
            omega
          simp only [Except.map, bind, Except.bind, sameNumber]
          exact collectFrom_later (number + 1 + left.size) enclosing tags right
  | .alternation children => by
      rw [collectFrom, collectFrom, Nat.add_right_comm]
      exact collectAllFrom_later (number + 1) enclosing known children
  | .conjunction children => by
      rw [collectFrom, collectFrom, Nat.add_right_comm]
      exact collectAllFrom_later (number + 1) enclosing known children
  | .repetition child least most => by
      have inside := collectFrom_later (number + 1) (enclosing ++ [number]) known child
      rw [List.map_append, List.map_singleton] at inside
      rw [collectFrom, collectFrom, Nat.add_right_comm]
      exact inside
  | .negation child => by
      rw [collectFrom, collectFrom, Nat.add_right_comm]
      exact collectFrom_later (number + 1) enclosing known child
  | .within child duration => by
      rw [collectFrom, collectFrom, Nat.add_right_comm]
      exact collectFrom_later (number + 1) enclosing known child
  | .guarded child guard => by
      rw [collectFrom, collectFrom, Nat.add_right_comm]
      exact collectFrom_later (number + 1) enclosing known child
  | .timer duration => by
      rw [collectFrom, collectFrom]
      rfl

theorem collectAllFrom_later (number : Nat) (enclosing : List Nat) (known : List Tag) :
    (children : List PatternExpr) →
      collectAllFrom schema (number + places) (enclosing.map (· + places))
          (known.map (Tag.later places)) children =
        (collectAllFrom schema number enclosing known children).map (List.map (Tag.later places))
  | [] => by
      rw [collectAllFrom, collectAllFrom]
      rfl
  | child :: rest => by
      rw [collectAllFrom, collectAllFrom, collectFrom_later number enclosing known child]
      cases collectFrom schema number enclosing known child with
      | error fault => rfl
      | ok tags =>
          have sameNumber : number + places + child.size = number + child.size + places := by omega
          simp only [Except.map, bind, Except.bind, sameNumber]
          exact collectAllFrom_later (number + child.size) enclosing tags rest

end

end Tag

namespace CompiledPattern

variable {places : Nat} {schema : Schema}

theorem guardScope_later (tags : List Tag) (enclosing : List Nat) :
    guardScope schema (tags.map (Tag.later places)) (enclosing.map (· + places)) =
      guardScope schema tags enclosing := by
  rw [guardScope, List.foldl_map, guardScope]
  simp only [Tag.streamFrom_later]

theorem predicateScope_later (tags : List Tag) (enclosing : List Nat) (spec : FilterSpec) :
    predicateScope schema (tags.map (Tag.later places)) (enclosing.map (· + places)) spec =
      predicateScope schema tags enclosing spec := by
  have others : (tags.map (Tag.later places)).filter (fun tag => spec.tag != some tag.name) =
      (tags.filter fun tag => spec.tag != some tag.name).map (Tag.later places) := by
    rw [List.filter_map]
    rfl
  rw [predicateScope, others, guardScope_later, List.length_map, predicateScope]

theorem innerSlots_later (tags : List Tag) (repetition : Nat) :
    innerSlots (tags.map (Tag.later places)) (repetition + places) =
      innerSlots tags repetition := by
  have inside : (tags.map (Tag.later places)).filter
      (fun tag => tag.repetitions.contains (repetition + places)) =
      (tags.filter fun tag => tag.repetitions.contains repetition).map (Tag.later places) := by
    rw [List.filter_map]
    refine congrArg _ (List.filter_congr fun tag _ => ?_)
    exact Tag.contains_later tag.repetitions repetition
  rw [innerSlots, inside, List.map_map, innerSlots]
  rfl

theorem compileFilter_later (tags : List Tag) (enclosing : List Nat) (spec : FilterSpec) :
    compileFilter schema (tags.map (Tag.later places)) (enclosing.map (· + places)) spec =
      (compileFilter schema tags enclosing spec).map (PatternNode.renumber (· + places)) := by
  have slot : (spec.tag.bind (Tag.find? (tags.map (Tag.later places)))).map Tag.slot =
      (spec.tag.bind (Tag.find? tags)).map Tag.slot := by
    cases spec.tag with
    | none => rfl
    | some name =>
        rw [Option.bind_some, Tag.find?_later, Option.map_map, Option.bind_some]
        rfl
  rw [compileFilter, slot, compileFilter]
  cases spec.predicate with
  | none => rfl
  | some condition =>
      simp only [predicateScope_later]
      cases bindCondition (predicateScope schema tags enclosing spec) condition <;> rfl

mutual

/-- The nodes of a pattern with later numbers are its nodes with later numbers. -/
theorem compileFrom_later (tags : List Tag) (number : Nat) (enclosing : List Nat) :
    (expr : PatternExpr) →
      compileFrom schema (tags.map (Tag.later places)) (number + places)
          (enclosing.map (· + places)) expr =
        (compileFrom schema tags number enclosing expr).map
          (List.map (PatternNode.renumber (· + places)))
  | .filter spec => by
      rw [compileFrom, compileFrom, compileFilter_later]
      cases compileFilter schema tags enclosing spec <;> rfl
  | .every child => by
      rw [compileFrom, compileFrom, Nat.add_right_comm,
        compileFrom_later tags (number + 1) enclosing child]
      cases compileFrom schema tags (number + 1) enclosing child <;> rfl
  | .sequence left right => by
      rw [compileFrom, compileFrom, Nat.add_right_comm,
        compileFrom_later tags (number + 1) enclosing left]
      cases compileFrom schema tags (number + 1) enclosing left with
      | error fault => rfl
      | ok lefts =>
          have sameNumber :
              number + 1 + places + lefts.length = number + 1 + lefts.length + places := by
            omega
          simp only [Except.map, bind, Except.bind, List.length_map, sameNumber]
          rw [compileFrom_later tags (number + 1 + lefts.length) enclosing right]
          cases compileFrom schema tags (number + 1 + lefts.length) enclosing right with
          | error fault => rfl
          | ok rights =>
              simp only [Except.map, pure, Except.pure, List.map_cons, List.map_append,
                PatternNode.renumber]
  | .alternation children => by
      rw [compileFrom, compileFrom, Nat.add_right_comm]
      cases checkOperands "or" children with
      | error fault => rfl
      | ok checked =>
          simp only [bind, Except.bind]
          rw [compileAllFrom_later tags (number + 1) enclosing children]
          cases compileAllFrom schema tags (number + 1) enclosing children <;> rfl
  | .conjunction children => by
      rw [compileFrom, compileFrom, Nat.add_right_comm]
      cases checkOperands "and" children with
      | error fault => rfl
      | ok checked =>
          simp only [bind, Except.bind]
          rw [compileAllFrom_later tags (number + 1) enclosing children]
          cases compileAllFrom schema tags (number + 1) enclosing children <;> rfl
  | .repetition child least most => by
      have inside := compileFrom_later tags (number + 1) (enclosing ++ [number]) child
      rw [List.map_append, List.map_singleton] at inside
      rw [compileFrom, compileFrom, innerSlots_later, Nat.add_right_comm]
      cases checkBounds least most with
      | error fault => rfl
      | ok checked =>
          simp only [bind, Except.bind]
          rw [inside]
          cases compileFrom schema tags (number + 1) (enclosing ++ [number]) child <;> rfl
  | .negation child => by
      rw [compileFrom, compileFrom, Nat.add_right_comm,
        compileFrom_later tags (number + 1) enclosing child]
      cases compileFrom schema tags (number + 1) enclosing child <;> rfl
  | .within child duration => by
      rw [compileFrom, compileFrom, Nat.add_right_comm,
        compileFrom_later tags (number + 1) enclosing child]
      cases compileFrom schema tags (number + 1) enclosing child <;> rfl
  | .guarded child guard => by
      rw [compileFrom, compileFrom, guardScope_later, Nat.add_right_comm]
      cases bindCondition (guardScope schema tags enclosing) guard with
      | error fault => rfl
      | ok bound =>
          simp only [bind, Except.bind]
          rw [compileFrom_later tags (number + 1) enclosing child]
          cases compileFrom schema tags (number + 1) enclosing child <;> rfl
  | .timer duration => by
      rw [compileFrom, compileFrom]
      rfl

theorem compileAllFrom_later (tags : List Tag) (number : Nat) (enclosing : List Nat) :
    (children : List PatternExpr) →
      compileAllFrom schema (tags.map (Tag.later places)) (number + places)
          (enclosing.map (· + places)) children =
        (compileAllFrom schema tags number enclosing children).map fun compiled =>
          (compiled.1.map (· + places), compiled.2.map (PatternNode.renumber (· + places)))
  | [] => by
      rw [compileAllFrom, compileAllFrom]
      rfl
  | child :: rest => by
      rw [compileAllFrom, compileAllFrom, compileFrom_later tags number enclosing child]
      cases compileFrom schema tags number enclosing child with
      | error fault => rfl
      | ok nodes =>
          have sameNumber : number + places + nodes.length = number + nodes.length + places := by
            omega
          simp only [Except.map, bind, Except.bind, List.length_map, sameNumber]
          rw [compileAllFrom_later tags (number + nodes.length) enclosing rest]
          cases compileAllFrom schema tags (number + nodes.length) enclosing rest with
          | error fault => rfl
          | ok compiled =>
              simp only [Except.map, pure, Except.pure, List.map_cons, List.map_append]

end

variable {expr : PatternExpr}

/-- Nodes behind some nodes that stand behind others stand behind both. -/
theorem behind_behind
    (pattern : CompiledPattern)
    (first second : List PatternNode) :
    (pattern.behind second).behind first =
      pattern.behind (first ++ second.map (PatternNode.renumber (· + first.length))) := by
  have sameNode : ∀ node : PatternNode,
      (node.renumber (· + second.length)).renumber (· + first.length) =
        node.renumber (· + (first.length + second.length)) := by
    intro node
    cases node <;>
      simp [PatternNode.renumber, Nat.add_left_comm, Nat.add_comm, Function.comp_def]
  have sameTag : ∀ tag : Tag,
      (tag.later second.length).later first.length = tag.later (first.length + second.length) := by
    intro tag
    simp [Tag.later, Nat.add_left_comm, Nat.add_comm, Function.comp_def]
  have sameNodes := List.map_congr_left fun (node : PatternNode) (_ : node ∈ pattern.nodes) =>
    sameNode node
  have sameTags := List.map_congr_left fun (tag : Tag) (_ : tag ∈ pattern.tags) => sameTag tag
  simp only [behind, List.length_append, List.length_map, List.map_append, List.map_map,
    List.append_assoc, Function.comp_def, sameNodes, sameTags]

/-- A pattern whose operand compiles alone is its own node before those of the operand. -/
private theorem compile_around
    {whole : PatternExpr}
    {head : PatternNode}
    (collects :
      ∀ known, Tag.collectFrom schema 0 [] known whole = Tag.collectFrom schema 1 [] known expr)
    (compiles :
      ∀ tags, compileFrom schema tags 0 [] whole =
        (compileFrom schema tags 1 [] expr).map (head :: ·)) :
    compile schema whole = (compile schema expr).map (·.behind [head]) := by
  have sameTags := @Tag.collectFrom_later 1 schema 0 [] [] expr
  simp only [List.map_nil, Nat.zero_add] at sameTags
  rw [compile_eq, collects, sameTags, compile_eq]
  cases Tag.collectFrom schema 0 [] [] expr with
  | error fault => rfl
  | ok tags =>
      have sameNodes := @compileFrom_later 1 schema tags 0 [] expr
      simp only [List.map_nil, Nat.zero_add] at sameNodes
      simp only [Except.map, bind, Except.bind, compiles]
      rw [sameNodes]
      cases compileFrom schema tags 0 [] expr <;> rfl

/-- A time bound is compiled to its node before those of its operand. -/
theorem compile_within
    (expr : PatternExpr)
    (duration : Nat) :
    compile schema (.within expr duration) =
      (compile schema expr).map
        (·.behind [.within 1 (min duration longestDuration) expr.isNegation]) := by
  refine compile_around (fun known => ?_) fun tags => ?_
  · rw [Tag.collectFrom]
  · rw [compileFrom]
    cases compileFrom schema tags 1 [] expr <;> rfl

/-- A negation is compiled to its node before those of its operand. -/
theorem compile_negation
    (expr : PatternExpr) :
    compile schema (.negation expr) =
      (compile schema expr).map (·.behind [.negation 1]) := by
  refine compile_around (fun known => ?_) fun tags => ?_
  · rw [Tag.collectFrom]
  · rw [compileFrom]
    cases compileFrom schema tags 1 [] expr <;> rfl

/-- A time bound over the absence of a pattern is two nodes before those of the pattern. -/
theorem compile_within_negation
    (expr : PatternExpr)
    (duration : Nat) :
    compile schema (.within (.negation expr) duration) =
      (compile schema expr).map
        (·.behind [.within 1 (min duration longestDuration) true, .negation 2]) := by
  rw [compile_within, compile_negation]
  cases compile schema expr with
  | error fault => rfl
  | ok pattern => exact congrArg Except.ok (pattern.behind_behind _ _)

end CompiledPattern

end EventQuery
