import EventQuery.Binding.Bind

namespace EventQuery

/-!
# Conditions

A condition is an expression that decides whether something passes, and so it must be a truth value.
-/

/-- Bind a condition.  The error for another type names the place of the condition and its text. -/
def Scope.bindCondition (scope : Scope) (place : String) (expr : Expr) :
    Except BindingError Node := do
  let node ← scope.bind expr
  if ValueType.bool.accepts node.type then
    return node
  else
    throw (.mismatch (place ++ " '" ++ expr.text ++ "'") .bool node.type)

end EventQuery
