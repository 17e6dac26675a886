import EventQuery.Pattern.Expr
import EventQuery.Pattern.Tag
import Mathlib.Data.List.Basic
import Mathlib.Data.List.Nodup

namespace EventQuery

/-!
# Tags by name and by slot

The tags of a pattern are collected in one walk over it.  A tag keeps the slot of its place in the
list of tags, and its name belongs to no other tag, so that a slot, a tag and a name always mean the
same thing.

The walk counts numbers as it goes.  `Tag.collectFrom` knows them by the sizes of the operands and
finds the same tags, which is the form that everything behind this module is about.

The operators of a pattern differ in what they mean and agree in how they are listed: an operator
comes first and its operands follow one after another.  The operands as a list give all operators
one induction and one numbering.
-/

/-! ## Operands of a pattern -/

namespace PatternExpr

/-- The operands of a pattern in written order. -/
def operands : PatternExpr → List PatternExpr
  | .filter _ => []
  | .every child => [child]
  | .sequence left right => [left, right]
  | .alternation children => children
  | .conjunction children => children
  | .repetition child _ _ => [child]
  | .negation child => [child]
  | .within child _ => [child]
  | .guarded child _ => [child]
  | .timer _ => []

/-- A pattern is its outermost operator or leaf and its operands. -/
theorem size_eq
    (expr : PatternExpr) :
    expr.size = totalSize expr.operands + 1 := by
  cases expr <;> simp [size, operands, totalSize]

theorem size_le_totalSize
    {child : PatternExpr}
    {children : List PatternExpr}
    (member : child ∈ children) :
    child.size ≤ totalSize children := by
  induction children with
  | nil =>
      cases member
  | cons first rest inductionHypothesis =>
      rw [totalSize]
      rcases List.mem_cons.mp member with isFirst | inRest
      · subst isFirst
        exact Nat.le_add_right _ _
      · exact Nat.le_trans (inductionHypothesis inRest) (Nat.le_add_left _ _)

/-- What passes from all operands to their operator holds for every pattern. -/
theorem operandInduction
    {motive : PatternExpr → Prop}
    (step : ∀ expr, (∀ child ∈ expr.operands, motive child) → motive expr)
    (expr : PatternExpr) :
    motive expr := by
  induction bound : expr.size using Nat.strongRecOn generalizing expr with
  | ind size inductionHypothesis =>
      apply step
      intro child member
      have smaller := size_le_totalSize member
      have whole := expr.size_eq
      exact inductionHypothesis child.size (by omega) child rfl

theorem size_pos
    (expr : PatternExpr) :
    0 < expr.size := by
  cases expr <;> simp [size]

/-- The numbers of several patterns that are listed one after another. -/
def numbersFrom (number : Nat) : List PatternExpr → List Nat
  | [] => []
  | child :: rest => number :: numbersFrom (number + child.size) rest

theorem le_of_mem_numbersFrom
    {number other : Nat}
    {children : List PatternExpr}
    (member : other ∈ numbersFrom number children) :
    number ≤ other := by
  induction children generalizing number with
  | nil =>
      simp [numbersFrom] at member
  | cons child rest inductionHypothesis =>
      rw [numbersFrom, List.mem_cons] at member
      rcases member with isFirst | inRest
      · exact Nat.le_of_eq isFirst.symm
      · exact Nat.le_trans (Nat.le_add_right _ _) (inductionHypothesis inRest)

theorem lt_of_mem_numbersFrom
    {number other : Nat}
    {children : List PatternExpr}
    (member : other ∈ numbersFrom number children) :
    other < number + totalSize children := by
  induction children generalizing number with
  | nil =>
      simp [numbersFrom] at member
  | cons child rest inductionHypothesis =>
      have positive := child.size_pos
      rw [numbersFrom, List.mem_cons] at member
      rw [totalSize]
      rcases member with isFirst | inRest
      · omega
      · have := inductionHypothesis inRest
        omega

theorem nodup_numbersFrom
    (number : Nat)
    (children : List PatternExpr) :
    (numbersFrom number children).Nodup := by
  induction children generalizing number with
  | nil =>
      exact List.nodup_nil
  | cons child rest inductionHypothesis =>
      refine List.nodup_cons.mpr ⟨?_, inductionHypothesis _⟩
      intro member
      have later := le_of_mem_numbersFrom member
      have positive := child.size_pos
      omega

end PatternExpr

/-! ## Tags -/

/-- A sequence of two steps succeeds when both do. -/
theorem ok_of_bind
    {ε α β : Type}
    {first : Except ε α}
    {next : α → Except ε β}
    {result : β}
    (succeeds : (first >>= next) = .ok result) :
    ∃ value, first = .ok value ∧ next value = .ok result := by
  cases first with
  | error fault =>
      cases succeeds
  | ok value =>
      exact ⟨value, rfl, succeeds⟩

namespace PatternExpr

/-- The repetitions around the operands of a pattern. -/
def enclosingOperands (number : Nat) (enclosing : List Nat) : PatternExpr → List Nat
  | .repetition _ _ _ => enclosing ++ [number]
  | _ => enclosing

end PatternExpr

namespace Tag

mutual

/--
The tags of a pattern after those already known.  The number behind an operand is not counted on the
way, but known beforehand by the size of the operand.
-/
def collectFrom (schema : Schema) (number : Nat) (enclosing : List Nat) (known : List Tag) :
    PatternExpr → Except BindingError (List Tag)
  | .filter spec => do
      let _ ← schema.requireEventType spec.eventType
      match spec.tag with
      | none => return known
      | some name => declare known name spec.eventType enclosing
  | .every child => collectFrom schema (number + 1) enclosing known child
  | .sequence left right => do
      let tags ← collectFrom schema (number + 1) enclosing known left
      collectFrom schema (number + 1 + left.size) enclosing tags right
  | .alternation children => collectAllFrom schema (number + 1) enclosing known children
  | .conjunction children => collectAllFrom schema (number + 1) enclosing known children
  | .repetition child _ _ => collectFrom schema (number + 1) (enclosing ++ [number]) known child
  | .negation child => collectFrom schema (number + 1) enclosing known child
  | .within child _ => collectFrom schema (number + 1) enclosing known child
  | .guarded child _ => collectFrom schema (number + 1) enclosing known child
  | .timer _ => .ok known

/-- The tags of several patterns, numbered one after another by their sizes. -/
def collectAllFrom (schema : Schema) (number : Nat) (enclosing : List Nat) (known : List Tag) :
    List PatternExpr → Except BindingError (List Tag)
  | [] => .ok known
  | child :: rest => do
      let tags ← collectFrom schema number enclosing known child
      collectAllFrom schema (number + child.size) enclosing tags rest

end

mutual

/-- The walk over a pattern counts as many numbers as the pattern has operators and leaves. -/
theorem collect_eq
    {schema : Schema}
    (number : Nat)
    (enclosing : List Nat)
    (known : List Tag) :
    (expr : PatternExpr) →
      collect schema number enclosing known expr =
        (collectFrom schema number enclosing known expr).map (·, number + expr.size)
  | .filter spec => by
      rw [collect, collectFrom]
      cases schema.requireEventType spec.eventType with
      | error problem => rfl
      | ok _ =>
          cases spec.tag with
          | none => rfl
          | some name =>
              simp only [bind, Except.bind]
              cases declare known name spec.eventType enclosing <;> rfl
  | .every child => by
      rw [collect, collectFrom, collect_eq (number + 1) enclosing known child,
        PatternExpr.size, Nat.add_right_comm, ← Nat.add_assoc]
  | .sequence left right => by
      rw [collect, collectFrom, collect_eq (number + 1) enclosing known left, PatternExpr.size]
      cases collectFrom schema (number + 1) enclosing known left with
      | error problem => rfl
      | ok tags =>
          have counted : collect schema (number + 1 + left.size) enclosing tags right = _ :=
            collect_eq (number + 1 + left.size) enclosing tags right
          have behind : number + 1 + left.size + right.size =
              number + (left.size + right.size + 1) := by omega
          rwa [behind] at counted
  | .alternation children => by
      rw [collect, collectFrom, collectAll_eq (number + 1) enclosing known children,
        PatternExpr.size, Nat.add_right_comm, ← Nat.add_assoc]
  | .conjunction children => by
      rw [collect, collectFrom, collectAll_eq (number + 1) enclosing known children,
        PatternExpr.size, Nat.add_right_comm, ← Nat.add_assoc]
  | .repetition child least most => by
      rw [collect, collectFrom, collect_eq (number + 1) (enclosing ++ [number]) known child,
        PatternExpr.size, Nat.add_right_comm, ← Nat.add_assoc]
  | .negation child => by
      rw [collect, collectFrom, collect_eq (number + 1) enclosing known child,
        PatternExpr.size, Nat.add_right_comm, ← Nat.add_assoc]
  | .within child duration => by
      rw [collect, collectFrom, collect_eq (number + 1) enclosing known child,
        PatternExpr.size, Nat.add_right_comm, ← Nat.add_assoc]
  | .guarded child guard => by
      rw [collect, collectFrom, collect_eq (number + 1) enclosing known child,
        PatternExpr.size, Nat.add_right_comm, ← Nat.add_assoc]
  | .timer duration => by
      rw [collect, collectFrom, PatternExpr.size]
      rfl

private theorem collectAll_eq
    {schema : Schema}
    (number : Nat)
    (enclosing : List Nat)
    (known : List Tag) :
    (children : List PatternExpr) →
      collectAll schema number enclosing known children =
        (collectAllFrom schema number enclosing known children).map
          (·, number + PatternExpr.totalSize children)
  | [] => by
      rw [collectAll, collectAllFrom, PatternExpr.totalSize]
      rfl
  | child :: rest => by
      rw [collectAll, collectAllFrom, collect_eq number enclosing known child,
        PatternExpr.totalSize, ← Nat.add_assoc]
      cases collectFrom schema number enclosing known child with
      | error problem => rfl
      | ok tags => exact collectAll_eq (number + child.size) enclosing tags rest

end

variable {schema : Schema} {number : Nat} {enclosing : List Nat} {known tags : List Tag}

/-- Apart from a filter, the tags of a pattern are those of its operands. -/
theorem collectFrom_operands
    {expr : PatternExpr}
    (success : collectFrom schema number enclosing known expr = .ok tags)
    (notFilter : ∀ spec, expr ≠ .filter spec) :
    collectAllFrom schema (number + 1) (expr.enclosingOperands number enclosing) known
      expr.operands = .ok tags := by
  cases expr <;> rw [collectFrom] at success
  case filter spec =>
      exact absurd rfl (notFilter spec)
  case sequence left right =>
      obtain ⟨middle, collectsLeft, collectsRight⟩ := ok_of_bind success
      simp [PatternExpr.operands, PatternExpr.enclosingOperands, collectAllFrom, collectsLeft,
        collectsRight, bind, Except.bind]
  case alternation children =>
      exact success
  case conjunction children =>
      exact success
  case timer duration =>
      exact success
  all_goals
    simp [PatternExpr.operands, PatternExpr.enclosingOperands, collectAllFrom, success, bind,
      Except.bind]

/-- A filter without a tag declares none, and one with a tag declares it. -/
theorem collectFrom_filter
    {spec : FilterSpec}
    (success : collectFrom schema number enclosing known (.filter spec) = .ok tags) :
    (spec.tag = none ∧ tags = known) ∨
      ∃ name, spec.tag = some name ∧ declare known name spec.eventType enclosing = .ok tags := by
  rw [collectFrom] at success
  obtain ⟨_, _, declares⟩ := ok_of_bind success
  cases named : spec.tag with
  | none =>
      rw [named] at declares
      cases declares
      exact .inl ⟨rfl, rfl⟩
  | some name =>
      rw [named] at declares
      exact .inr ⟨name, rfl, declares⟩

/-- A declaration adds a tag behind the others, or finds one of its event type. -/
theorem declare_cases
    {name eventType : String}
    (declares : declare known name eventType enclosing = .ok tags) :
    (find? known name = none ∧ tags = known ++ [⟨name, eventType, known.length, enclosing⟩]) ∨
      ∃ first, find? known name = some first ∧ first.eventType = eventType ∧ tags = known := by
  rw [declare] at declares
  split at declares
  next isNew =>
      cases declares
      exact .inl ⟨isNew, rfl⟩
  next first found =>
      split at declares
      next sameType =>
          cases declares
          exact .inr ⟨first, found, sameType, rfl⟩
      next => cases declares

/-- What the walk over each of several patterns keeps, the walk over them all keeps. -/
theorem collectAllFrom_keeps
    (keeps : List Tag → Prop)
    {children : List PatternExpr}
    (inChild :
      ∀ child ∈ children, ∀ {number : Nat} {enclosing : List Nat} {known tags : List Tag},
        collectFrom schema number enclosing known child = .ok tags → keeps known → keeps tags)
    (success : collectAllFrom schema number enclosing known children = .ok tags)
    (before : keeps known) :
    keeps tags := by
  induction children generalizing number known with
  | nil =>
      rw [collectAllFrom] at success
      cases success
      exact before
  | cons child rest inductionHypothesis =>
      rw [collectAllFrom] at success
      obtain ⟨middle, first, later⟩ := ok_of_bind success
      exact inductionHypothesis (fun other member => inChild other (by simp [member])) later
        (inChild child (by simp) first before)

/-- What every declaration keeps, the walk over a pattern keeps. -/
theorem collectFrom_keeps
    (keeps : List Tag → Prop)
    (declared :
      ∀ {name eventType : String} {enclosing : List Nat} {known tags : List Tag},
        declare known name eventType enclosing = .ok tags → keeps known → keeps tags)
    {expr : PatternExpr}
    (success : collectFrom schema number enclosing known expr = .ok tags)
    (before : keeps known) :
    keeps tags := by
  induction expr using PatternExpr.operandInduction generalizing number enclosing known tags with
  | step expr inductionHypothesis =>
      by_cases isFilter : ∃ spec, expr = .filter spec
      · obtain ⟨spec, shape⟩ := isFilter
        subst shape
        rcases collectFrom_filter success with ⟨_, same⟩ | ⟨_, _, declares⟩
        · exact same ▸ before
        · exact declared declares before
      · exact collectAllFrom_keeps keeps inductionHypothesis
          (collectFrom_operands success (fun spec shape => isFilter ⟨spec, shape⟩)) before

/-- Each tag has the slot of its place, and no name belongs to two tags. -/
structure Placed (tags : List Tag) : Prop where
  slotOfPlace :
    ∀ {place : Nat} {tag : Tag}, tags[place]? = some tag → tag.slot = place
  namesNodup : (tags.map Tag.name).Nodup

/-- A tag that is looked up is one of the tags and has the name. -/
theorem mem_of_find?
    {name : String}
    {tag : Tag}
    (found : find? tags name = some tag) :
    tag ∈ tags ∧ tag.name = name :=
  ⟨List.mem_of_find?_eq_some found, by simpa using List.find?_some found⟩

/-- A declaration keeps each tag at its place. -/
theorem Placed.declare
    {name eventType : String}
    (declares : declare known name eventType enclosing = .ok tags)
    (placed : Placed known) :
    Placed tags := by
  rcases declare_cases declares with ⟨isNew, rfl⟩ | ⟨_, _, _, rfl⟩
  · have newName : ∀ tag ∈ known, tag.name ≠ name := by
      intro tag member same
      have := List.find?_eq_none.mp isNew tag member
      simp [same] at this
    constructor
    · intro place tag atPlace
      rcases Nat.lt_or_ge place known.length with inKnown | behind
      · rw [List.getElem?_append_left inKnown] at atPlace
        exact placed.slotOfPlace atPlace
      · rw [List.getElem?_append_right behind] at atPlace
        obtain ⟨inRange, shape⟩ := List.getElem?_eq_some_iff.mp atPlace
        simp only [List.length_cons, List.length_nil] at inRange
        simp only [List.getElem_singleton] at shape
        subst shape
        simp only
        omega
    · rw [List.map_append, List.nodup_append]
      refine ⟨placed.namesNodup, List.nodup_singleton _, ?_⟩
      intro first member last isLast same
      obtain ⟨tag, tagMember, tagName⟩ := List.mem_map.mp member
      simp only [List.map_cons, List.map_nil, List.mem_singleton] at isLast
      exact newName tag tagMember (tagName.trans (same.trans isLast))
  · exact placed

/-- The tags of a pattern are placed. -/
theorem placed_of_collectFrom
    {expr : PatternExpr}
    (success : collectFrom schema number enclosing [] expr = .ok tags) :
    Placed tags :=
  collectFrom_keeps Placed (fun declares placed => placed.declare declares) success
    ⟨by simp, List.nodup_nil⟩

theorem Placed.slot_lt
    (placed : Placed tags)
    {tag : Tag}
    (member : tag ∈ tags) :
    tag.slot < tags.length := by
  obtain ⟨place, atPlace⟩ := List.getElem?_of_mem member
  rw [placed.slotOfPlace atPlace]
  exact (List.getElem?_eq_some_iff.mp atPlace).1

/-- The slots of the tags in order are the numbers from zero on. -/
theorem Placed.map_slot
    (placed : Placed tags) :
    tags.map Tag.slot = List.range tags.length := by
  refine List.ext_getElem (by simp) fun place inSlots _ => ?_
  rw [List.length_map] at inSlots
  rw [List.getElem_map, List.getElem_range]
  exact placed.slotOfPlace (List.getElem?_eq_getElem inSlots)

theorem Placed.find?_name
    (placed : Placed tags)
    {tag : Tag}
    (member : tag ∈ tags) :
    find? tags tag.name = some tag := by
  cases found : find? tags tag.name with
  | none =>
      have := List.find?_eq_none.mp found tag member
      simp at this
  | some other =>
      obtain ⟨otherMember, sameName⟩ := mem_of_find? found
      rw [List.inj_on_of_nodup_map placed.namesNodup otherMember member sameName]

end Tag

end EventQuery
