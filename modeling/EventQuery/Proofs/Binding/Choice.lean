import EventQuery.Binding.Overload
import Mathlib.Data.List.Forall2

namespace EventQuery

/-!
# The method that is chosen

The choice among overloaded methods gives the position of a candidate.  The candidate there has as
many parameters as there are arguments, each argument fits its parameter, and the candidate is more
specific than all others of which this is true.
-/

namespace Overload

variable {arguments : List ArgumentShape} {position : Nat}

/-- The choice among candidates that apply. -/
def settle (applicable : List Candidate) : Selection :=
  match applicable.filter (dominates applicable) with
  | [] => .ambiguous (applicable.map Prod.snd)
  | [only] => .unique only.2
  | tied => .ambiguous (tied.map Prod.snd)

/-- Candidates of the right length are refused when none applies; else those that apply compete. -/
theorem chooseOfArity_cons
    (first : Candidate)
    (rest : List Candidate) :
    chooseOfArity (first :: rest) arguments =
      if ((first :: rest).filter (applies arguments)).isEmpty then
        .mismatch first.2 (firstMisfit arguments first)
      else settle ((first :: rest).filter (applies arguments)) :=
  rfl

/-- The winner is the only candidate that beats all others. -/
theorem settle_eq_unique_iff
    {applicable : List Candidate} :
    settle applicable = .unique position ↔
      ∃ parameters, applicable.filter (dominates applicable) = [(parameters, position)] := by
  rw [settle]
  split
  next isNone => simp [isNone]
  next only isOnly => simp [isOnly, Prod.ext_iff]
  next notOnly => simpa using fun parameters => notOnly (parameters, position)

/-- Of candidates of the right length the only one is chosen that dominates those that apply. -/
theorem chooseOfArity_eq_unique_iff
    {sameArity : List Candidate} :
    chooseOfArity sameArity arguments = .unique position ↔
      ∃ parameters, (sameArity.filter (applies arguments)).filter
        (dominates (sameArity.filter (applies arguments))) = [(parameters, position)] := by
  cases sameArity with
  | nil => simp [chooseOfArity]
  | cons first rest =>
      rw [chooseOfArity_cons]
      split
      next noneApplies => simp [List.isEmpty_iff.mp noneApplies]
      next => exact settle_eq_unique_iff

/-- Whether a call may take a candidate: each argument has a parameter, which it fits. -/
def Takes (parameters : List ValueType) (arguments : List ArgumentShape) : Prop :=
  List.Forall₂ (fun parameter argument => argument.fits parameter = true) parameters arguments

/-- The candidates of the right length that apply. -/
def applicable (candidates : List (List ValueType)) (arguments : List ArgumentShape) :
    List Candidate :=
  (candidates.zipIdx.filter fun candidate => candidate.1.length == arguments.length).filter
    (applies arguments)

variable {candidates : List (List ValueType)} {parameters : List ValueType}

/-- These are the candidates that the call may take. -/
theorem mem_applicable_iff :
    (parameters, position) ∈ applicable candidates arguments ↔
      candidates[position]? = some parameters ∧ Takes parameters arguments := by
  rw [applicable, List.mem_filter, List.mem_filter, List.mem_zipIdx_iff_getElem?, beq_iff_eq,
    and_assoc, Takes, List.forall₂_iff_zip, applies, List.all_eq_true]
  simp only [Prod.forall]

/-- A candidate is chosen when it is the only one that dominates those that apply. -/
theorem select_eq_unique_iff_filter :
    select candidates arguments = .unique position ↔
      ∃ parameters, (applicable candidates arguments).filter
        (dominates (applicable candidates arguments)) = [(parameters, position)] :=
  chooseOfArity_eq_unique_iff

/-- The candidate that is chosen has a parameter for each argument, which fits it. -/
theorem select_eq_unique
    (chosen : select candidates arguments = .unique position) :
    ∃ parameters, candidates[position]? = some parameters ∧ Takes parameters arguments := by
  obtain ⟨parameters, isOnly⟩ := select_eq_unique_iff_filter.mp chosen
  have member := List.mem_filter.mp (isOnly ▸ List.mem_singleton_self (parameters, position))
  exact ⟨parameters, mem_applicable_iff.mp member.1⟩

end Overload

end EventQuery
