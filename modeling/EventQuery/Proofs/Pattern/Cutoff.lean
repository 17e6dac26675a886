import EventQuery.Proofs.Pattern.TimeBound
import Mathlib

namespace EventQuery

namespace Engine

/-!
# What a time bound cuts off

Runs of a pattern on its own and inside a time bound answer alike until a time at or after the
deadline is told.  The first such time ends the time bound.  The deadline is reckoned with the
duration as far as it fits a point of time, which makes a difference for times before zero only.
-/

section Calls

variable {schema : Schema} {expr around : PatternExpr} {plain bounded : CompiledPattern}
  {blank : Row} {duration : Nat} {deadline : Int} {limit patience larger : Nat} {now : Int}
  {calls : List Call} {inner outer : Engine}

/-- A pattern on its own and inside a time bound start together. -/
theorem start_timeBound
    (success : CompiledPattern.compile schema expr = .ok plain)
    (successAround : CompiledPattern.compile schema around = .ok
      (plain.behind [.within 1 duration false]))
    (timeless : plain.Timeless)
    (returns :
      2 * patience + 1 ≤ larger ∧ (Engine.start plain limit patience now).isAtRest = true ∨
        larger ≤ patience ∧ (Engine.start (plain.behind [.within 1 duration false]) limit larger
          now).isAtRest = true) :
    let outer := Engine.start (plain.behind [.within 1 duration false]) limit larger now
    (Engine.start plain limit patience now).isAtRest = true ∧ outer.isAtRest = true ∧
      CutTogether
        (Casing.timeBound plain.blank duration (Progress.deadlineAfter now duration) larger)
        (Engine.start plain limit patience now) outer := by
  have table := CompiledPattern.sound_of_compile success
  have tableAround := CompiledPattern.sound_of_compile successAround
  have leads := step_opened_timeBound plain duration limit patience larger now
  rw [← Function.iterate_one step] at leads
  have due := due_opened table (RowLaw.width plain) limit patience now
  have dueAround :=
    (due_opened tableAround (RowLaw.width _) limit larger now).step tableAround
  rw [← Function.iterate_one step, leads] at dueAround
  exact settle_timeBound table tableAround timeless due dueAround leads rfl rfl returns

/-- A pattern on its own and inside a time bound answer a call alike before the deadline. -/
theorem call_timeBound
    (success : CompiledPattern.compile schema expr = .ok plain)
    (successAround : CompiledPattern.compile schema around = .ok bounded)
    (timeless : plain.Timeless)
    (run : Run plain limit patience now calls inner)
    (runAround : Run bounded limit larger now calls outer)
    (together : CutTogether (Casing.timeBound blank duration deadline larger) inner outer)
    {next : Call}
    (goesOn : next ≠ .stop)
    (inTime : ∀ told, next = .time told → max inner.now told < deadline)
    (returns : 2 * patience ≤ larger ∧ (inner.call next).1.isAtRest = true ∨
      larger ≤ patience ∧ (outer.call next).1.isAtRest = true) :
    (inner.call next).1.isAtRest = true ∧ (outer.call next).1.isAtRest = true ∧
      (outer.call next).2 = (inner.call next).2 ∧
        CutTogether (Casing.timeBound blank duration deadline larger) (inner.call next).1
          (outer.call next).1 := by
  have table := CompiledPattern.sound_of_compile success
  have tableAround := CompiledPattern.sound_of_compile successAround
  rcases together with isCased | ⟨rootless, rootlessAround, sameMatches⟩
  · subst isCased
    generalize isCasing : Casing.timeBound blank duration deadline larger = casing at *
    have due := run.due_begun table (RowLaw.width plain) next fun _ => trivial
    have dueAround := runAround.due_begun tableAround (RowLaw.width bounded) next fun _ => trivial
    have begins : (casing.engine inner).begun next = casing.engine (inner.begun next) := by
      subst isCasing
      refine Casing.begun_engine rfl (run.deadlines_of_timeless table timeless) goesOn ?_
      intro entry member
      cases List.mem_singleton.mp member
      exact inTime
    have patient : (inner.begun next).patience = patience :=
      (patience_begun inner next).trans run.terms.2.2.1
    rw [isAtRest_call, isAtRest_call, begins] at returns
    rw [begins] at dueAround
    have leads : step^[0] (casing.engine (inner.begun next)) = casing.engine (inner.begun next) :=
      rfl
    subst isCasing
    obtain ⟨rests, restsAround, together⟩ :=
      settle_timeBound table tableAround timeless due dueAround leads patient rfl returns
    rw [isAtRest_call, isAtRest_call, begins, call_eq goesOn, call_eq goesOn, begins]
    refine ⟨rests, restsAround, ?_⟩
    rcases together with isCased | ⟨rootless, rootlessAround, sameMatches⟩
    · rw [isCased]
      exact ⟨rfl, .inl rfl⟩
    · exact ⟨sameMatches, .inr ⟨rootless, rootlessAround, rfl⟩⟩
  · obtain ⟨atRest, stillRootless, noneLeft, handsOut⟩ :=
      call_of_finished (Run.wellFormed success run) run.atRest rootless next
    obtain ⟨atRestAround, stillRootlessAround, noneLeftAround, handsOutAround⟩ :=
      call_of_finished (Run.wellFormed successAround runAround) runAround.atRest rootlessAround next
    refine ⟨atRest, atRestAround, ?_,
      .inr ⟨stillRootless, stillRootlessAround, noneLeftAround.trans noneLeft.symm⟩⟩
    rw [handsOut, handsOutAround, sameMatches]

/-- The run before its last call. -/
theorem Run.before_last
    {next : Call}
    (run : Run plain limit patience now (calls ++ [next]) inner) :
    ∃ before, Run plain limit patience now calls before ∧
      (before.call next).1.isAtRest = true ∧ inner = (before.call next).1 := by
  generalize isCalls : calls ++ [next] = made at run
  cases run with
  | start => exact absurd isCalls (by simp)
  | call last run returned =>
      obtain ⟨isEarlier, isLast⟩ := List.append_inj' isCalls rfl
      cases isLast
      exact ⟨_, isEarlier ▸ run, returned, rfl⟩

/-- A time at or after the deadline has been told. -/
def Overdue (deadline now : Int) (calls : List Call) : Prop :=
  ∃ earlier told later, calls = earlier ++ .time told :: later ∧
    deadline ≤ max (timeAfter now earlier) told

theorem not_overdue_nil : ¬Overdue deadline now [] := by
  rintro ⟨earlier, told, later, isCalls, _⟩
  simp at isCalls

/-- The deadline has been told when it was told earlier or by the last call. -/
theorem overdue_append_singleton
    {next : Call} :
    Overdue deadline now (calls ++ [next]) ↔
      Overdue deadline now calls ∨
        ∃ told, next = .time told ∧ deadline ≤ max (timeAfter now calls) told := by
  constructor
  · rintro ⟨earlier, told, later, isCalls, isLate⟩
    cases later using List.reverseRecOn with
    | nil =>
        obtain ⟨isEarlier, isLast⟩ := List.append_inj' isCalls rfl
        exact .inr ⟨told, List.singleton_inj.mp isLast, isEarlier ▸ isLate⟩
    | append_singleton later last =>
        rw [← List.cons_append, ← List.append_assoc] at isCalls
        exact .inl ⟨earlier, told, later, (List.append_inj' isCalls rfl).1, isLate⟩
  · rintro (⟨earlier, told, later, isCalls, isLate⟩ | ⟨told, isTime, isLate⟩)
    · exact ⟨earlier, told, later ++ [next], by rw [isCalls]; simp, isLate⟩
    · exact ⟨calls, told, [], by rw [isTime], isLate⟩

/-- A pattern on its own and inside a time bound run together before the deadline. -/
theorem runs_timeBound
    (success : CompiledPattern.compile schema expr = .ok plain)
    (successAround : CompiledPattern.compile schema around = .ok
      (plain.behind [.within 1 duration false]))
    (timeless : plain.Timeless)
    (goesOn : Call.stop ∉ calls)
    (early : ¬Overdue (Progress.deadlineAfter now duration) now calls)
    (runs :
      2 * patience + 1 ≤ larger ∧ (∃ inner, Run plain limit patience now calls inner) ∨
        larger ≤ patience ∧
          ∃ outer, Run (plain.behind [.within 1 duration false]) limit larger now calls outer) :
    ∃ inner outer, Run plain limit patience now calls inner ∧
      Run (plain.behind [.within 1 duration false]) limit larger now calls outer ∧
        CutTogether
          (Casing.timeBound plain.blank duration (Progress.deadlineAfter now duration) larger)
          inner outer ∧
        ((Engine.start (plain.behind [.within 1 duration false]) limit larger now).makeCalls
            calls).2 =
          ((Engine.start plain limit patience now).makeCalls calls).2 := by
  induction calls using List.reverseRecOn with
  | nil =>
      have returns :
          2 * patience + 1 ≤ larger ∧ (Engine.start plain limit patience now).isAtRest = true ∨
            larger ≤ patience ∧ (Engine.start (plain.behind [.within 1 duration false]) limit
              larger now).isAtRest = true := by
        refine runs.imp (And.imp_right ?_) (And.imp_right ?_) <;>
          · rintro ⟨started, run⟩
            have returned := run.atRest
            rw [run.eq_makeCalls] at returned
            exact returned
      obtain ⟨rests, restsAround, together⟩ :=
        start_timeBound success successAround timeless returns
      exact ⟨_, _, .start rests, .start restsAround, together, rfl⟩
  | append_singleton calls next inductionHypothesis =>
      rw [overdue_append_singleton, not_or] at early
      obtain ⟨earlyBefore, inTime⟩ := early
      have before := inductionHypothesis
        (fun member => goesOn (List.mem_append_left _ member)) earlyBefore
        (runs.imp
          (And.imp_right fun ⟨_, run⟩ => run.before_last.imp fun _ => And.left)
          (And.imp_right fun ⟨_, run⟩ => run.before_last.imp fun _ => And.left))
      obtain ⟨inner, outer, run, runAround, together, sameReplies⟩ := before
      have isInner := run.eq_makeCalls
      have isOuter := runAround.eq_makeCalls
      have returns : 2 * patience ≤ larger ∧ (inner.call next).1.isAtRest = true ∨
          larger ≤ patience ∧ (outer.call next).1.isAtRest = true := by
        refine runs.imp (And.imp (by omega) ?_) (And.imp_right ?_)
        · rintro ⟨last, lastRun⟩
          obtain ⟨other, otherRun, rests, _⟩ := lastRun.before_last
          rwa [isInner, ← otherRun.eq_makeCalls]
        · rintro ⟨last, lastRun⟩
          obtain ⟨other, otherRun, rests, _⟩ := lastRun.before_last
          rwa [isOuter, ← otherRun.eq_makeCalls]
      obtain ⟨rests, restsAround, sameReply, stillTogether⟩ :=
        call_timeBound success successAround timeless run runAround together
          (fun isStop => goesOn (by simp [isStop]))
          (fun told isTime => Int.lt_of_not_ge fun isLate =>
            inTime ⟨told, isTime, run.terms.2.2.2 ▸ isLate⟩)
          returns
      refine ⟨_, _, .call next run rests, .call next runAround restsAround, stillTogether, ?_⟩
      rw [makeCalls_append, makeCalls_append, ← isInner, ← isOuter, sameReplies]
      simp only [makeCalls, sameReply]

/-- Before the deadline a pattern is over inside a time bound when it is on its own. -/
theorem isFinished_timeBound
    (success : CompiledPattern.compile schema expr = .ok plain)
    (successAround : CompiledPattern.compile schema around = .ok bounded)
    (run : Run plain limit patience now calls inner)
    (runAround : Run bounded limit larger now calls outer)
    (together : CutTogether (Casing.timeBound blank duration deadline larger) inner outer) :
    outer.isFinished = inner.isFinished := by
  rcases together with isCased | ⟨rootless, rootlessAround, _⟩
  · have table := CompiledPattern.sound_of_compile success
    have live : outer.states.get? ⟨0, 0⟩ =
        some ⟨0, none, 0, blank, .within (some ⟨1, 0⟩) deadline none⟩ :=
      isCased ▸ get?_timeBound
    obtain ⟨state, childLive, _⟩ :=
      (Run.wellFormed successAround runAround).childrenLive live ⟨1, 0⟩ (List.mem_singleton.mpr rfl)
    have inside :=
      @Casing.get?_engine (Casing.timeBound blank duration deadline larger) inner ⟨0, 0⟩
    rw [← isCased] at inside
    obtain ⟨top, topLive, _⟩ := Option.map_eq_some_iff.mp (inside.symm.trans childLive)
    have rooted := (run.coherent table (RowLaw.width plain) fun _ => trivial).rooted topLive
    rw [isCased, isFinished, isFinished, Bool.eq_iff_iff]
    simp [Casing.engine, rooted]
  · rw [isFinished, isFinished, rootless, rootlessAround]

/-- A time bound whose deadline has come is over, and what it holds is its last match. -/
theorem call_of_expired
    (atRest : outer.isAtRest = true)
    {ticket : Ticket}
    {node created : Nat}
    {bindings : Row}
    {child : Option Ticket}
    {held : Option Row}
    (live : outer.states.get? ticket =
      some ⟨node, none, created, bindings, .within child deadline held⟩)
    {told : Int}
    (isDue : StateIndex.upTo outer.deadlines (max outer.now told) = [ticket])
    (enough : 2 ≤ outer.patience) :
    (outer.call (.time told)).1.isAtRest = true ∧ (outer.call (.time told)).1.root = none ∧
      (outer.call (.time told)).2 = outer.completed ++ held.toList := by
  have isAgenda : (outer.begun (.time told)).agenda = [.expire ticket] := by
    simp only [begun, isDue, List.isEmpty_iff.mp atRest]
    rfl
  have sameMatches : (outer.begun (.time told)).completed = outer.completed := rfl
  have stillLive : (outer.begun (.time told)).states.get? ticket =
      some ⟨node, none, created, bindings, .within child deadline held⟩ :=
    live
  have patient := patience_begun outer (.time told)
  generalize isBegun : outer.begun (.time told) = begun at *
  have released := SameStanding.release begun [ticket]
  have ends : (step^[2] begun).isAtRest = true ∧ (step^[2] begun).root = none ∧
      (step^[2] begun).completed = outer.completed ++ held.toList := by
    rw [Function.iterate_succ_apply, Function.iterate_one, step_of_agenda isAgenda, perform, expire,
      stillLive]
    cases held with
    | none =>
        simp only [finish, stillLive]
        rw [step_of_agenda rfl]
        exact ⟨rfl, rfl, by simpa [perform, conclude, sameMatches] using released.completed⟩
    | some bindings =>
        simp only [finish, stillLive]
        rw [step_of_agenda rfl]
        exact ⟨rfl, rfl, by simp [perform, conclude, released.completed, sameMatches]⟩
  rw [call_eq (by simp), isBegun]
  have reaches : Reaches 2 begun fun reached => reached.isAtRest = true ∧
      reached.root = none ∧ reached.completed = outer.completed ++ held.toList :=
    ⟨2, Nat.le_refl 2, ends⟩
  exact reaches.settle (patient ▸ enough)

/-- With the first time at or after the deadline a time bound is over. -/
theorem cut_timeBound
    (success : CompiledPattern.compile schema expr = .ok plain)
    (successAround : CompiledPattern.compile schema around = .ok bounded)
    (timeless : plain.Timeless)
    (run : Run plain limit patience now calls inner)
    (runAround : Run bounded limit larger now calls outer)
    (together : CutTogether (Casing.timeBound blank duration deadline larger) inner outer)
    {told : Int}
    (isLate : deadline ≤ max inner.now told)
    (enough : 2 ≤ larger) :
    (outer.call (.time told)).1.isAtRest = true ∧ (outer.call (.time told)).1.root = none ∧
      (outer.call (.time told)).2 = inner.completed := by
  rcases together with isCased | ⟨rootless, rootlessAround, sameMatches⟩
  · have noDeadlines :=
      run.deadlines_of_timeless (CompiledPattern.sound_of_compile success) timeless
    have isDue : ∀ present : Int, deadline ≤ present →
        StateIndex.upTo outer.deadlines present = [⟨0, 0⟩] := by
      intro present isLate
      subst isCased
      simp [StateIndex.upTo, Casing.engine, Casing.timeBound, noDeadlines, StateIndex.relocate,
        isLate]
    have isLateAround : deadline ≤ max outer.now told := by
      rw [isCased]
      exact isLate
    obtain ⟨atRest, rootless, handsOut⟩ := call_of_expired runAround.atRest
      (isCased ▸ get?_timeBound) (isDue _ isLateAround) (runAround.terms.2.2.1 ▸ enough)
    refine ⟨atRest, rootless, handsOut.trans ?_⟩
    rw [isCased]
    exact List.append_nil _
  · obtain ⟨atRest, stillRootless, _, handsOut⟩ :=
      call_of_finished (Run.wellFormed successAround runAround) runAround.atRest rootlessAround
        (.time told)
    exact ⟨atRest, stillRootless, handsOut.trans sameMatches⟩

/-- The deadline for times from zero on or durations that are not too long. -/
theorem deadlineAfter_min_longestDuration
    (now : Int)
    (duration : Nat)
    (usual : 0 ≤ now ∨ duration ≤ CompiledPattern.longestDuration) :
    Progress.deadlineAfter now (min duration CompiledPattern.longestDuration) =
      min (now + duration) Progress.lastMoment := by
  have isLongest : (CompiledPattern.longestDuration : Int) = Progress.lastMoment := rfl
  rw [Progress.deadlineAfter]
  omega

/--
A time bound only cuts off.  Until a time at or after the deadline is told, a pattern without time
answers each call inside a time bound as it does on its own, returns where it returns, and is over
when it is.  When such a time is told, the time bound hands out what was completed before, and
nothing of it is left.
-/
theorem timeBound_only_cuts
    (success : CompiledPattern.compile schema expr = .ok plain)
    (timeless : expr.isTimeless = true)
    (positive : expr.isNegation = false)
    (duration : Nat) :
    ∃ bounded, CompiledPattern.compile schema (.within expr duration) = .ok bounded ∧
      ∀ (limit : Nat) (now : Int),
        let deadline := Progress.deadlineAfter now (min duration CompiledPattern.longestDuration)
        (0 ≤ now ∨ duration ≤ CompiledPattern.longestDuration →
          deadline = min (now + duration) Progress.lastMoment) ∧
        ∀ {calls : List Call}, Call.stop ∉ calls → ¬Overdue deadline now calls →
          (∀ {patience larger : Nat} {outer : Engine}, larger ≤ patience →
            Run bounded limit larger now calls outer →
              ∃ inner, Run plain limit patience now calls inner) ∧
          ∀ {patience larger : Nat} {inner : Engine}, 2 * patience + 2 ≤ larger →
            Run plain limit patience now calls inner →
              let made := (Engine.start bounded limit larger now).makeCalls calls
              Run bounded limit larger now calls made.1 ∧
                made.2 = ((Engine.start plain limit patience now).makeCalls calls).2 ∧
                made.1.isFinished = inner.isFinished ∧
                ∀ (told : Int) (after : List Call), deadline ≤ max inner.now told →
                  let cut := made.1.makeCalls (.time told :: after)
                  Run bounded limit larger now (calls ++ .time told :: after) cut.1 ∧
                    cut.1.isFinished = true ∧ cut.1.stateCount = 0 ∧
                    cut.2 = inner.completed :: after.map fun _ => [] := by
  have isBounded := @CompiledPattern.compile_within schema expr duration
  rw [success, positive] at isBounded
  have isTimeless : plain.Timeless := CompiledPattern.timeless_of_compile success timeless
  refine ⟨_, isBounded, fun limit now => ⟨deadlineAfter_min_longestDuration now duration, ?_⟩⟩
  intro calls goesOn early
  constructor
  · intro patience larger outer enough runAround
    obtain ⟨inner, _, run, _⟩ :=
      runs_timeBound success isBounded isTimeless goesOn early (.inr ⟨enough, outer, runAround⟩)
    exact ⟨inner, run⟩
  · intro patience larger inner enough given made
    obtain ⟨sameInner, outer, run, runAround, together, sameReplies⟩ :=
      runs_timeBound success isBounded isTimeless goesOn early
        (.inl ⟨Nat.le_of_succ_le enough, inner, given⟩)
    have isSame : inner = sameInner := given.eq_makeCalls.trans run.eq_makeCalls.symm
    have isMade : made.1 = outer := runAround.eq_makeCalls.symm
    subst isSame
    rw [isMade]
    refine ⟨runAround, sameReplies, ?_, ?_⟩
    · exact isFinished_timeBound success isBounded run runAround together
    · intro told after isLate cut
      obtain ⟨atRest, rootless, handsOut⟩ :=
        cut_timeBound success isBounded isTimeless run runAround together isLate (by omega)
      have cutRun := Run.call (.time told) runAround atRest
      obtain ⟨runs, stillRootless, replies⟩ :=
        cutRun.makeCalls_of_finished isBounded rootless rfl after
      rw [List.append_assoc, List.singleton_append] at runs
      refine ⟨runs, ?_, ?_, ?_⟩
      · exact Option.isNone_iff_eq_none.mpr stillRootless
      · exact (Run.wellFormed isBounded runs).stateCount_of_finished stillRootless
      · exact congrArg₂ List.cons handsOut replies

end Calls

/-- Each event of the type matches inside a time bound as on its own, until the deadline is told. -/
theorem timeBound_only_cuts_everyTick :
    ∃ bounded,
      CompiledPattern.compile tickSchema (.within (.every (.filter ⟨some "t", "Tick", none⟩)) 5) =
          .ok bounded ∧
        let made := (Engine.start bounded 10 22 0).makeCalls [.event tick, .time 4]
        made.2 = [[[Value.event tick]], []] ∧ made.1.isFinished = false ∧
          (made.1.makeCalls [.time 5, .event tick]).1.isFinished = true ∧
          (made.1.makeCalls [.time 5, .event tick]).2 = [[], []] := by
  have compiles : CompiledPattern.compile tickSchema
      (.every (.filter ⟨some "t", "Tick", none⟩)) = .ok everyTick := rfl
  obtain ⟨bounded, isBounded, cuts⟩ := timeBound_only_cuts compiles rfl rfl 5
  refine ⟨bounded, isBounded, ?_⟩
  obtain ⟨_, alike⟩ := cuts 10 0
  have early : ¬Overdue (Progress.deadlineAfter 0 (min 5 CompiledPattern.longestDuration)) 0
      (([] ++ [.event tick]) ++ [.time 4]) := by
    rw [overdue_append_singleton, overdue_append_singleton]
    rintro ((never | ⟨told, isTime, _⟩) | ⟨told, isTime, isLate⟩)
    · exact not_overdue_nil never
    · cases isTime
    · cases isTime
      exact absurd isLate (by decide)
  have first : Run everyTick 10 10 0 [.event tick]
      ((Engine.start everyTick 10 10 0).call (.event tick)).1 :=
    .call (.event tick) (.start rfl) (by cbv)
  have run := Run.call (.time 4) first (by cbv)
  obtain ⟨_, together⟩ := alike (by simp) early
  obtain ⟨_, sameReplies, sameEnd, cut⟩ := together (Nat.le_refl 22) run
  obtain ⟨_, isOver, _, replies⟩ := cut 5 [.event tick] (Int.le_max_right _ _)
  refine ⟨sameReplies.trans (by cbv), sameEnd.trans (by cbv), isOver, replies.trans (by cbv)⟩

/-- A pattern that waits for one event, compiled. -/
def oneTick : CompiledPattern := ⟨[.filter "Tick" (some 0) none], [⟨"t", "Tick", 0, []⟩]⟩

/-- The same pattern inside a time bound that is longer than any time, compiled. -/
def oneTickLong : CompiledPattern := oneTick.behind [.within 1 CompiledPattern.longestDuration false]

/-- A duration counts as the longest one, so that a time bound from before zero ends before it. -/
theorem longest_duration_cuts_early :
    CompiledPattern.compile tickSchema (.filter ⟨some "t", "Tick", none⟩) = .ok oneTick ∧
      CompiledPattern.compile tickSchema
          (.within (.filter ⟨some "t", "Tick", none⟩) 9223372036854775808) = .ok oneTickLong ∧
      (9223372036854775806 : Int) < min (-1 + 9223372036854775808) Progress.lastMoment ∧
      ((Engine.start oneTick 10 10 (-1)).makeCalls
        [.time 9223372036854775806]).1.isFinished = false ∧
      ((Engine.start oneTickLong 10 10 (-1)).makeCalls
        [.time 9223372036854775806]).1.isFinished = true := by
  refine ⟨rfl, rfl, by decide, by cbv, by cbv⟩

end Engine
end EventQuery
