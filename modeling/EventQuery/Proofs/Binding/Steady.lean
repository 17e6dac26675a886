import EventQuery.Binding.Condition
import EventQuery.Proofs.Binding.Yields

namespace EventQuery

/-!
# Steady expressions

Occasions tell the entities apart that methods and functions make, and nothing else.  Where methods
and functions are deterministic, an expression has the same value on a row on every occasion.
-/

/-- Methods and functions yield the same for the same arguments on every occasion. -/
structure Schema.Deterministic (schema : Schema) : Prop where
  methods :
    ∀ {shapeName shape method},
      schema.shape? shapeName = some shape → method ∈ shape.methods →
        ∀ occasion other receiver arguments,
          method.invoke occasion receiver arguments = method.invoke other receiver arguments
  functions :
    ∀ {home space function},
      schema.namespace? home = some space → function ∈ space.functions →
        ∀ occasion other arguments,
          function.invoke occasion arguments = function.invoke other arguments

namespace Schema

theorem deterministic_empty : empty.Deterministic := ⟨nofun, nofun⟩

/-- A declared type with deterministic methods leaves a schema deterministic. -/
theorem Deterministic.addShape
    {schema : Schema}
    {shape : Shape}
    (deterministic : schema.Deterministic)
    (methods :
      ∀ method ∈ shape.methods, ∀ occasion other receiver arguments,
        method.invoke occasion receiver arguments = method.invoke other receiver arguments) :
    (schema.addShape shape).Deterministic where
  methods := by
    intro shapeName found method isFound member
    rw [shape?, Schema.addShape, Table.find?_put] at isFound
    split at isFound
    next =>
        cases isFound
        exact methods method member
    next => exact deterministic.methods isFound member
  functions := deterministic.functions

end Schema

namespace Node

/-- Whether an expression has the same value on a row on every occasion. -/
def Steady (node : Node) : Prop :=
  ∀ row occasion other, node.evaluate row occasion = node.evaluate row other

namespace Steady

variable {node : Node} {nodes : List Node}

/-- Several steady expressions have the same values on a row on every occasion. -/
theorem all
    (steady : ∀ node ∈ nodes, node.Steady)
    (row : Row)
    (occasion other : Occasion)
    (position otherPosition : Nat) :
    evaluateAll row occasion position nodes = evaluateAll row other otherPosition nodes := by
  induction nodes generalizing position otherPosition with
  | nil => rfl
  | cons node rest inductionHypothesis =>
      have first := steady node List.mem_cons_self
      have others := inductionHypothesis
        fun node member => steady node (List.mem_cons_of_mem _ member)
      rw [evaluateAll, evaluateAll, first row (position :: occasion) (otherPosition :: other),
        others (position + 1) (otherPosition + 1)]

theorem passes
    (steady : node.Steady)
    (row : Row)
    (occasion other : Occasion) :
    node.passes row occasion = node.passes row other := by
  rw [Node.passes, Node.passes, steady row occasion other]

end Steady

end Node

namespace Scope

variable {scope : Scope}

/-- Everything that binding yields is steady where methods and functions are deterministic. -/
theorem Yields.steady
    {admitted : Value → Prop}
    {node : Node}
    (yielded : scope.Yields admitted node)
    (deterministic : scope.schema.Deterministic) :
    node.Steady := by
  induction yielded with
  | literal | stream | row | aggregate | streamProperty => exact fun _ _ _ => rfl
  | slotProperty => exact fun _ _ _ => rfl
  | property _ _ _ _ receiver | entry _ _ receiver | unknownProperty _ _ receiver =>
      intro row occasion other
      rw [Node.evaluate, Node.evaluate, receiver row (0 :: occasion) (0 :: other)]
  | item _ _ receiver | unknownItem _ _ receiver =>
      intro row occasion other
      rw [Node.evaluate, Node.evaluate, receiver row (0 :: occasion) (0 :: other)]
  | builtin _ _ _ receiver arguments =>
      intro row occasion other
      rw [Node.evaluate, Node.evaluate, receiver row (0 :: occasion) (0 :: other),
        Node.Steady.all arguments row occasion other 1 1]
  | method _ _ shaped declared _ _ _ receiver arguments =>
      intro row occasion other
      have same := deterministic.methods shaped declared occasion other
      simp only [Node.evaluate, receiver row (0 :: occasion) (0 :: other),
        Node.Steady.all arguments row occasion other 1 1, same]
  | function spaced declared _ _ _ arguments =>
      intro row occasion other
      have same := deterministic.functions spaced declared occasion other
      simp only [Node.evaluate, Node.Steady.all arguments row occasion other 0 0, same]
  | binary _ _ _ first second =>
      intro row occasion other
      simp only [Node.evaluate, first row (0 :: occasion) (0 :: other),
        second row (1 :: occasion) (1 :: other)]
  | not _ _ operand | neg _ _ operand =>
      intro row occasion other
      rw [Node.evaluate, Node.evaluate, operand row (0 :: occasion) (0 :: other)]

/-- What an expression is bound to is steady where methods and functions are deterministic. -/
theorem steady_bind
    {expr : Expr}
    {node : Node}
    (deterministic : scope.schema.Deterministic)
    (bound : scope.bind expr = .ok node) :
    node.Steady := by
  have yielded : scope.Yields (fun _ => True) node := yields_bind expr (fun _ _ => trivial) bound
  exact yielded.steady deterministic

/-- A bound condition is steady where methods and functions are deterministic. -/
theorem steady_bindCondition
    {place : String}
    {expr : Expr}
    {node : Node}
    (deterministic : scope.schema.Deterministic)
    (bound : scope.bindCondition place expr = .ok node) :
    node.Steady := by
  obtain ⟨middle, isMiddle, outcome⟩ := bind_eq_ok_iff.mp bound
  split at outcome
  next =>
      cases outcome
      exact steady_bind deterministic isMiddle
  next => cases outcome

end Scope

end EventQuery
