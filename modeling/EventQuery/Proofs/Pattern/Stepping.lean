import EventQuery.Pattern.Run
import Mathlib.Logic.Function.Iterate

namespace EventQuery

namespace Engine

/-!
# Counting steps

Performing tasks is taking steps, and a step of an engine at rest changes nothing.  What an engine
reaches within some steps it therefore reaches with any greater patience, once it is at rest there.
-/

/-- A step performs the first task of the agenda. -/
theorem step_of_agenda
    {engine : Engine}
    {task : Task}
    {rest : List Task}
    (isAgenda : engine.agenda = task :: rest) :
    engine.step =
      { (engine.perform task).1 with agenda := (engine.perform task).2 ++ rest } := by
  unfold step
  rw [isAgenda]

/-- A step of an engine at rest changes nothing. -/
theorem step_of_isAtRest
    {engine : Engine}
    (atRest : engine.isAtRest = true) :
    engine.step = engine := by
  unfold step
  rw [List.isEmpty_iff.mp atRest]

/-- Performing tasks is taking as many steps. -/
theorem performTasks_eq_iterate
    (engine : Engine)
    (tasks : Nat) :
    engine.performTasks tasks = step^[tasks] engine := by
  induction tasks generalizing engine with
  | zero =>
      rfl
  | succ tasks inductionHypothesis =>
      rw [performTasks, Function.iterate_succ_apply]
      split
      next atRest =>
          rw [step_of_isAtRest atRest, Function.iterate_fixed (step_of_isAtRest atRest)]
      next => exact inductionHypothesis engine.step

/-- An engine at rest is what any further steps leave. -/
theorem iterate_step_of_isAtRest
    {engine : Engine}
    {fewer more : Nat}
    (atRest : (step^[fewer] engine).isAtRest = true)
    (order : fewer ≤ more) :
    step^[more] engine = step^[fewer] engine := by
  obtain ⟨extra, isSum⟩ := Nat.exists_eq_add_of_le' order
  rw [isSum, Function.iterate_add_apply, Function.iterate_fixed (step_of_isAtRest atRest)]

/-- Rest is not reached before every task of the agenda has had its turn. -/
theorem length_le_of_isAtRest
    {engine : Engine}
    {steps : Nat}
    (atRest : (step^[steps] engine).isAtRest = true) :
    engine.agenda.length ≤ steps := by
  induction steps generalizing engine with
  | zero =>
      exact Nat.le_of_eq (congrArg List.length (List.isEmpty_iff.mp atRest))
  | succ steps inductionHypothesis =>
      have later := inductionHypothesis (by rwa [Function.iterate_succ_apply] at atRest)
      cases isAgenda : engine.agenda with
      | nil => exact Nat.zero_le _
      | cons task rest =>
          rw [step_of_agenda isAgenda, List.length_append] at later
          rw [List.length_cons]
          omega

/-- An engine comes to a goal within some number of steps. -/
def Reaches (bound : Nat) (engine : Engine) (goal : Engine → Prop) : Prop :=
  ∃ steps, steps ≤ bound ∧ goal (step^[steps] engine)

namespace Reaches

/-- A goal that holds is reached without a step. -/
theorem now
    {engine : Engine}
    {goal : Engine → Prop}
    (holds : goal engine) :
    Reaches 0 engine goal :=
  ⟨0, Nat.le_refl _, holds⟩

/-- A goal reached after one step costs one step more. -/
theorem step
    {bound : Nat}
    {engine : Engine}
    {goal : Engine → Prop}
    (later : Reaches bound engine.step goal) :
    Reaches (bound + 1) engine goal := by
  obtain ⟨steps, order, holds⟩ := later
  exact ⟨steps + 1, Nat.succ_le_succ order, holds⟩

/-- What is reached from a goal is reached by way of it. -/
theorem bind
    {first second : Nat}
    {engine : Engine}
    {middle goal : Engine → Prop}
    (earlier : Reaches first engine middle)
    (later : ∀ {between : Engine}, middle between → Reaches second between goal) :
    Reaches (first + second) engine goal := by
  obtain ⟨steps, order, holds⟩ := earlier
  obtain ⟨more, moreOrder, reached⟩ := later holds
  refine ⟨more + steps, by omega, ?_⟩
  rw [Function.iterate_add_apply]
  exact reached

/-- What a goal implies is reached with it. -/
theorem imp
    {bound : Nat}
    {engine : Engine}
    {goal weaker : Engine → Prop}
    (reaches : Reaches bound engine goal)
    (implies : ∀ reached, goal reached → weaker reached) :
    Reaches bound engine weaker := by
  obtain ⟨steps, order, holds⟩ := reaches
  exact ⟨steps, order, implies _ holds⟩

theorem mono
    {fewer more : Nat}
    {engine : Engine}
    {goal : Engine → Prop}
    (reaches : Reaches fewer engine goal)
    (order : fewer ≤ more) :
    Reaches more engine goal := by
  obtain ⟨steps, bound, holds⟩ := reaches
  exact ⟨steps, Nat.le_trans bound order, holds⟩

/-- With enough patience an engine settles where it comes to rest. -/
theorem settle
    {bound : Nat}
    {engine : Engine}
    {goal : Engine → Prop}
    (reaches : Reaches bound engine fun reached => reached.isAtRest = true ∧ goal reached)
    (enough : bound ≤ engine.patience) :
    engine.settle.isAtRest = true ∧ goal engine.settle := by
  obtain ⟨steps, order, atRest, holds⟩ := reaches
  rw [Engine.settle, performTasks_eq_iterate,
    iterate_step_of_isAtRest atRest (Nat.le_trans order enough)]
  exact ⟨atRest, holds⟩

end Reaches

end Engine

end EventQuery
