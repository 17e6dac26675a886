import EventQuery.Proofs.Binding.Choice
import Mathlib.Data.Fintype.Perm
import Mathlib.Data.List.FinRange

namespace EventQuery

/-!
# Choice in any order of declaration

Which of several methods a call takes does not depend on the order in which they are declared.  The
relation between parameter types is no order: two types may accept each other, and what passes from
one type to a second and from there to a third need not pass at once.  So the winner is not unique
because it is least in an order, but because it differs from all others that apply, and each of them
would take what it takes.
-/

namespace Selection

/-- An outcome for candidates that stand at other positions. -/
def relocate (place : Nat → Nat) : Selection → Selection
  | unique candidate => .unique (place candidate)
  | noArity => .noArity
  | mismatch candidate argument => .mismatch (place candidate) argument
  | ambiguous candidates => .ambiguous (candidates.map place)

/--
Two outcomes agree when they choose the same candidate, or both leave the choice open among the same
ones, or both refuse for the same reason.  A refusal may name another candidate, since it names the
one that is declared first.
-/
inductive Agrees : Selection → Selection → Prop
  | unique (candidate : Nat) : Agrees (.unique candidate) (.unique candidate)
  | noArity : Agrees .noArity .noArity
  | mismatch (candidate argument other misfit : Nat) :
      Agrees (.mismatch candidate argument) (.mismatch other misfit)
  | ambiguous {candidates others : List Nat}
      (same : candidates.Perm others) :
      Agrees (.ambiguous candidates) (.ambiguous others)

end Selection

namespace Overload

/-- The candidates in another order of declaration. -/
def rearrange (candidates : List (List ValueType)) (order : Equiv.Perm (Fin candidates.length)) :
    List (List ValueType) :=
  List.ofFn fun position => candidates[order position]

/-- The position at which a candidate of another order of declaration stood before. -/
def formerPlace {candidates : List (List ValueType)}
    (order : Equiv.Perm (Fin candidates.length)) : Equiv.Perm Nat :=
  order.extendDomain Fin.equivSubtype

/-- A candidate that stands elsewhere. -/
def relocateCandidate (place : Nat → Nat) (candidate : Candidate) : Candidate :=
  (candidate.1, place candidate.2)

section Reordering

variable {candidates others : List Candidate} {arguments : List ArgumentShape}
  {candidate : Candidate} {place : Equiv.Perm Nat}

/-! ## Candidates in another order -/

/-- Which candidates win does not depend on their order. -/
theorem settle_agrees_of_perm
    (same : candidates.Perm others) :
    (settle candidates).Agrees (settle others) := by
  have winners : (candidates.filter (dominates candidates)).Perm
      (others.filter (dominates others)) := by
    rw [show dominates candidates = dominates others from funext fun _ => same.all_eq]
    exact same.filter _
  rw [settle, settle]
  -- there are as many winners in both orders, and a single one is the same
  split
  next isNone =>
      rw [isNone] at winners
      rw [← winners.nil_eq]
      exact .ambiguous (same.map Prod.snd)
  next only isOnly =>
      rw [isOnly] at winners
      rw [List.perm_singleton.mp winners.symm]
      exact .unique only.2
  next notNone notOnly =>
      split
      next isNone => exact absurd (isNone ▸ winners).eq_nil notNone
      next only isOnly => exact absurd (List.perm_singleton.mp (isOnly ▸ winners)) (notOnly only)
      next => exact .ambiguous (winners.map Prod.snd)

/-- Candidates of the right length give the same outcome in any order. -/
theorem chooseOfArity_agrees_of_perm
    (same : candidates.Perm others) :
    (chooseOfArity candidates arguments).Agrees (chooseOfArity others arguments) := by
  have applying := same.filter (applies arguments)
  cases candidates with
  | nil =>
      rw [← same.nil_eq]
      exact .noArity
  | cons first rest =>
      cases others with
      | nil => exact absurd same.eq_nil (List.cons_ne_nil first rest)
      | cons other otherRest =>
          rw [chooseOfArity_cons, chooseOfArity_cons, applying.isEmpty_eq]
          split
          next => exact .mismatch ..
          next => exact settle_agrees_of_perm applying

/-! ## Candidates at other positions -/

theorem dominates_relocate :
    dominates (others.map (relocateCandidate place)) (relocateCandidate place candidate) =
      dominates others candidate := by
  rw [dominates, dominates, List.all_map]
  refine congrArg _ (funext fun other => ?_)
  have same : (place candidate.2 == place other.2) = (candidate.2 == other.2) := by
    rw [Bool.eq_iff_iff, beq_iff_eq, beq_iff_eq, place.apply_eq_iff_eq]
  exact congrArg (· || moreSpecific candidate.1 other.1) same

/-- Candidates that stand elsewhere win there. -/
theorem settle_relocate :
    settle (candidates.map (relocateCandidate place)) = (settle candidates).relocate place := by
  have winners : (candidates.map (relocateCandidate place)).filter
        (dominates (candidates.map (relocateCandidate place))) =
      (candidates.filter (dominates candidates)).map (relocateCandidate place) := by
    rw [List.filter_map]
    exact congrArg _ (List.filter_congr fun _ _ => dominates_relocate)
  have positions : ∀ chosen : List Candidate,
      (chosen.map (relocateCandidate place)).map Prod.snd = (chosen.map Prod.snd).map place := by
    intro chosen
    rw [List.map_map, List.map_map]
    rfl
  rw [settle, settle, winners]
  rcases candidates.filter (dominates candidates) with _ | ⟨only, _ | ⟨second, tied⟩⟩
  · exact congrArg _ (positions candidates)
  · rfl
  · exact congrArg _ (positions (only :: second :: tied))

/-- Candidates that stand elsewhere are chosen there. -/
theorem chooseOfArity_relocate :
    chooseOfArity (candidates.map (relocateCandidate place)) arguments =
      (chooseOfArity candidates arguments).relocate place := by
  cases candidates with
  | nil => rfl
  | cons first rest =>
      have applying : ((first :: rest).map (relocateCandidate place)).filter (applies arguments) =
          ((first :: rest).filter (applies arguments)).map (relocateCandidate place) := by
        rw [List.filter_map]
        rfl
      rw [List.map_cons, chooseOfArity_cons, chooseOfArity_cons, ← List.map_cons, applying,
        settle_relocate, List.isEmpty_map, apply_ite (Selection.relocate place)]
      rfl

end Reordering

/-- The candidates of another order of declaration are the same ones, at their former positions. -/
theorem perm_zipIdx_rearrange
    (candidates : List (List ValueType))
    (order : Equiv.Perm (Fin candidates.length)) :
    candidates.zipIdx.Perm
      ((rearrange candidates order).zipIdx.map (relocateCandidate (formerPlace order))) := by
  have before : candidates.zipIdx =
      (List.finRange candidates.length).map fun position => (candidates[position], position.1) := by
    refine List.ext_getElem (by simp) fun position _ _ => ?_
    simp
  have after : (rearrange candidates order).zipIdx.map (relocateCandidate (formerPlace order)) =
      ((List.finRange candidates.length).map order).map
        fun position => (candidates[position], position.1) := by
    refine List.ext_getElem (by simp [rearrange]) fun position inside _ => ?_
    have isInside : position < candidates.length := by simpa [rearrange] using inside
    have placed : formerPlace order position = order ⟨position, isInside⟩ :=
      order.extendDomain_apply_image Fin.equivSubtype ⟨position, isInside⟩
    simp [rearrange, relocateCandidate, placed]
  rw [before, after]
  exact (Equiv.Perm.map_finRange_perm order).symm.map _

variable {candidates : List (List ValueType)} {arguments : List ArgumentShape}

/-- The outcome is the same in every order of declaration. -/
theorem select_agrees_rearrange
    (order : Equiv.Perm (Fin candidates.length)) :
    (select candidates arguments).Agrees
      ((select (rearrange candidates order) arguments).relocate (formerPlace order)) := by
  rw [select, select, ← chooseOfArity_relocate]
  refine chooseOfArity_agrees_of_perm ?_
  have ofArity := (perm_zipIdx_rearrange candidates order).filter
    fun candidate => candidate.1.length == arguments.length
  rwa [List.filter_map] at ofArity

/-! ## The winner -/

/-- Whether parameters could be passed on to others, one by one. -/
def PassesOn (parameters others : List ValueType) : Prop :=
  List.Forall₂ (fun narrow wide => wide.accepts narrow = true) parameters others

/--
The candidate at a position takes the arguments and beats all others that do: it differs from each
of them and could be passed on to it.
-/
structure Wins (candidates : List (List ValueType)) (arguments : List ArgumentShape)
    (parameters : List ValueType) (position : Nat) : Prop where
  declared : candidates[position]? = some parameters
  takes : Takes parameters arguments
  beats : ∀ other others, other ≠ position → candidates[other]? = some others →
    Takes others arguments → others ≠ parameters ∧ PassesOn parameters others

variable {parameters : List ValueType} {position other : Nat}

/-- No other candidate has the parameters of one that wins. -/
theorem Wins.single
    (wins : Wins candidates arguments parameters position)
    (isOther : candidates[other]? = some parameters) :
    other = position := by
  by_contra differs
  exact (wins.beats other parameters differs isOther wins.takes).1 rfl

/-- Parameters of one length are more specific than others when they differ and pass on to them. -/
theorem moreSpecific_iff
    {others : List ValueType}
    (sameLength : parameters.length = others.length) :
    moreSpecific parameters others = true ↔ others ≠ parameters ∧ PassesOn parameters others := by
  rw [moreSpecific, Bool.and_eq_true, bne_iff_ne, PassesOn, List.forall₂_iff_zip,
    List.all_eq_true, and_comm, ne_comm]
  simp only [sameLength, true_and, Prod.forall]

/-- The candidates that dominate those that apply are those that win. -/
theorem mem_dominating_iff :
    (parameters, position) ∈ (applicable candidates arguments).filter
        (dominates (applicable candidates arguments)) ↔
      Wins candidates arguments parameters position := by
  have beats_iff : ∀ {others other}, Takes parameters arguments → Takes others arguments →
      ((position == other || moreSpecific parameters others) = true ↔
        (other ≠ position → others ≠ parameters ∧ PassesOn parameters others)) := by
    intro others other takes takesOther
    rw [Bool.or_eq_true, beq_iff_eq,
      moreSpecific_iff (takes.length_eq.trans takesOther.length_eq.symm), eq_comm,
      or_iff_not_imp_left]
  rw [List.mem_filter, mem_applicable_iff, dominates, List.all_eq_true, Prod.forall]
  constructor
  · rintro ⟨⟨declared, takes⟩, beats⟩
    refine ⟨declared, takes, fun other others differs isOther takesOther => ?_⟩
    have isBeaten := beats others other (mem_applicable_iff.mpr ⟨isOther, takesOther⟩)
    exact (beats_iff takes takesOther).mp isBeaten differs
  · rintro ⟨declared, takes, beats⟩
    refine ⟨⟨declared, takes⟩, fun others other member => ?_⟩
    obtain ⟨isOther, takesOther⟩ := mem_applicable_iff.mp member
    exact (beats_iff takes takesOther).mpr fun differs =>
      beats other others differs isOther takesOther

/-- A candidate is chosen exactly when it wins and no other one does. -/
theorem select_eq_unique_iff :
    select candidates arguments = .unique position ↔
      ∃ parameters, ∀ others other,
        Wins candidates arguments others other ↔ others = parameters ∧ other = position := by
  rw [select_eq_unique_iff_filter]
  refine exists_congr fun parameters => ⟨fun isOnly others other => ?_, fun winners => ?_⟩
  · rw [← mem_dominating_iff, isOnly, List.mem_singleton, Prod.mk.injEq]
  · -- the candidates are at different positions, so the one that wins is there once
    have nodup : (applicable candidates arguments).Nodup := by
      have positions : (candidates.zipIdx.map Prod.snd).Nodup := by
        rw [List.zipIdx_map_snd]
        exact List.nodup_range'
      exact (positions.of_map.filter _).filter _
    refine List.perm_singleton.mp
      ((List.perm_ext_iff_of_nodup (nodup.filter _) (List.nodup_singleton _)).mpr ?_)
    rintro ⟨others, other⟩
    rw [mem_dominating_iff, winners, List.mem_singleton, Prod.mk.injEq]

/--
A choice has the same outcome in every order of declaration.  A candidate is chosen exactly when it
is the only one that wins; then it takes the arguments, and every other candidate that takes them
differs from it and takes what it takes, so that no signature that is declared twice is chosen.
-/
theorem select_rearrange
    (candidates : List (List ValueType))
    (order : Equiv.Perm (Fin candidates.length))
    (arguments : List ArgumentShape) :
    (select candidates arguments).Agrees
        ((select (rearrange candidates order) arguments).relocate (formerPlace order)) ∧
      ∀ position,
        (select candidates arguments = .unique position ↔
          ∃ parameters, ∀ others other,
            Wins candidates arguments others other ↔ others = parameters ∧ other = position) ∧
        ∀ parameters other, select candidates arguments = .unique position →
          candidates[position]? = some parameters → candidates[other]? = some parameters →
            other = position := by
  refine ⟨select_agrees_rearrange order, fun position => ⟨select_eq_unique_iff, ?_⟩⟩
  intro parameters other chosen isPosition isOther
  obtain ⟨winning, isOnly⟩ := select_eq_unique_iff.mp chosen
  have wins := (isOnly winning position).mpr ⟨rfl, rfl⟩
  exact wins.single (isOther.trans (isPosition.symm.trans wins.declared))

end Overload

end EventQuery
