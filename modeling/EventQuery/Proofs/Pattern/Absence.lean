import EventQuery.Proofs.Pattern.Cutoff

namespace EventQuery

/-!
# Absences

A time bound over the absence of a pattern watches the pattern until the deadline.  As long as the
pattern has not matched, the absence is held as a match without bound tags, whether the pattern runs
on or has failed for good.  With the first match of the pattern nothing is left of it.
-/

/-- What stands around a pattern whose absence is waited for. -/
def Casing.absence (blank : Row) (duration : Nat) (deadline : Int) (patience : Nat)
    (child : Option Ticket) (held : Option Row) (afterwards : List Task) : Casing where
  heads := [.within 1 duration true, .negation 2]
  slots := #[⟨0, some ⟨0, none, 0, blank, .within (some ⟨1, 0⟩) deadline held⟩⟩,
    ⟨0, some ⟨1, some ⟨0, 0⟩, 1, blank, .negation child⟩⟩]
  sameSize := rfl
  root := ⟨0, 0⟩
  owner := ⟨1, 0⟩
  deadlines := [(⟨deadline, 0⟩, ⟨0, 0⟩)]
  early := by simp
  patience := patience
  afterwards := afterwards

namespace Engine

section Opened

/-- After the first two steps of an absence the pattern opens, and the absence is to be held. -/
theorem iterate_opened_absence
    (plain : CompiledPattern)
    (duration limit patience larger : Nat)
    (now : Int) :
    step^[2] (opened (plain.behind [.within 1 duration true, .negation 2]) limit larger now) =
      (Casing.absence plain.blank duration (Progress.deadlineAfter now duration) larger
        (some ⟨2, 0⟩) none [.absence ⟨1, 0⟩]).engine (opened plain limit patience now) := by
  generalize isBounded : plain.behind [.within 1 duration true, .negation 2] = bounded
  have sameBlank : bounded.blank = plain.blank := isBounded ▸ plain.blank_behind _
  have isBound : bounded.nodes[0]? = some (.within 1 duration true) := by
    rw [← isBounded]
    rfl
  have isNegation : bounded.nodes[1]? = some (.negation 2) := by
    rw [← isBounded]
    rfl
  have isSecond : (idle bounded limit larger now).newState 1 (some ⟨0, 0⟩) plain.blank =
      ⟨1, some ⟨0, 0⟩, 0, plain.blank, .negation none⟩ := by
    simp only [newState, idle, isNegation]
    rfl
  have isStarted := step_opened_within isBound limit larger now
  simp only [sameBlank, isSecond] at isStarted
  rw [Function.iterate_succ_apply, Function.iterate_one]
  generalize (opened bounded limit larger now).step = middle at isStarted
  have live : middle.states.get? ⟨1, 0⟩ =
      some ⟨1, some ⟨0, 0⟩, 1, plain.blank, .negation none⟩ := by
    rw [isStarted]
    rfl
  have isNode : middle.nodeOf ⟨1, some ⟨0, 0⟩, 1, plain.blank, .negation none⟩ =
      some (.negation 2) := by
    rw [isStarted]
    exact isNegation
  have activated : middle.perform (.activate ⟨1, 0⟩) =
      ((middle.startChild ⟨1, 0⟩ 2 plain.blank).1,
        (middle.startChild ⟨1, 0⟩ 2 plain.blank).2 ++ [.absence ⟨1, 0⟩]) := by
    rw [perform, activate, live]
    simp only [isNode]
  rw [step_of_agenda (by rw [isStarted]), activated, isStarted, opened_eq, Casing.engine,
    Engine.mk.injEq]
  subst isBounded
  refine ⟨rfl, ?_, rfl, rfl, rfl, rfl, rfl, rfl, rfl, rfl, rfl, rfl, rfl⟩
  have inside := @Casing.newState_engine
    (Casing.absence plain.blank duration (Progress.deadlineAfter now duration) larger
      (some ⟨2, 0⟩) none [.absence ⟨1, 0⟩])
    (idle plain limit patience now) CompiledPattern.rootNumber none plain.blank
  simp only [Pool.behind, List.map_toArray, List.map_cons, List.map_nil, PoolSlot.map,
    Option.map_some, ← inside]
  rfl

end Opened

section Steps

variable {blank : Row} {duration : Nat} {deadline : Int} {larger : Nat} {child : Option Ticket}
  {held : Option Row} {afterwards : List Task} {inner : Engine}

theorem get?_absence :
    ((Casing.absence blank duration deadline larger child held afterwards).engine
        inner).states.get? ⟨0, 0⟩ =
      some ⟨0, none, 0, blank, .within (some ⟨1, 0⟩) deadline held⟩ :=
  Casing.get?_front rfl

theorem get?_absence_negation :
    ((Casing.absence blank duration deadline larger child held afterwards).engine
        inner).states.get? ⟨1, 0⟩ =
      some ⟨1, some ⟨0, 0⟩, 1, blank, .negation child⟩ :=
  Casing.get?_front rfl

/-- The negation hears a report as a negation does. -/
theorem receive_absence
    (sender : Ticket)
    (signal : Signal) :
    ((Casing.absence blank duration deadline larger child held afterwards).engine inner).receive
        ⟨1, 0⟩ sender signal =
      ((Casing.absence blank duration deadline larger child held afterwards).engine
        inner).receiveNegation ⟨1, 0⟩ signal := by
  rw [receive, get?_absence_negation]
  rfl

/-- When the pattern has failed its absence holds for good. -/
theorem keeps_absence
    {sender : Ticket}
    {restartable : Bool}
    {rest : List Task}
    (isAgenda : inner.agenda = .report none sender (.failed restartable) :: rest) :
    ((Casing.absence blank duration deadline larger child held afterwards).engine inner).step =
      (Casing.absence blank duration deadline larger none held afterwards).engine inner.step := by
  generalize isCasing : Casing.absence blank duration deadline larger child held afterwards = casing
  have outAgenda := @Casing.agenda_engine_of_report casing inner _ _ _ isAgenda
  have heard : (casing.engine inner).receive casing.owner (casing.ticket sender)
      (.failed restartable) = ((casing.engine inner).update ⟨1, 0⟩ Progress.withoutChild, []) := by
    subst isCasing
    exact receive_absence _ _
  rw [step_of_agenda outAgenda, perform, heard, step_of_agenda isAgenda, update]
  subst isCasing
  rw [Casing.engine, @Pool.modify_front _ _ _ _ ⟨1, 0⟩
    ⟨1, some ⟨0, 0⟩, 1, blank, .negation child⟩ rfl]
  rfl

/-- When the pattern has come to rest its absence is held so far. -/
theorem holds_absence
    (noTasks : inner.agenda = []) :
    step^[2] ((Casing.absence blank duration deadline larger child held
        [.absence ⟨1, 0⟩]).engine inner) =
      (Casing.absence blank duration deadline larger child (some blank) []).engine inner := by
  generalize isWatched : (Casing.absence blank duration deadline larger child held
    [.absence ⟨1, 0⟩]).engine inner = watched
  have isAgenda : watched.agenda = [.absence ⟨1, 0⟩] := by
    subst isWatched
    simp [Casing.engine, noTasks, Casing.absence]
  have live : watched.states.get? ⟨0, 0⟩ =
      some ⟨0, none, 0, blank, .within (some ⟨1, 0⟩) deadline held⟩ :=
    isWatched ▸ get?_absence
  have tells : watched.perform (.absence ⟨1, 0⟩) =
      (watched, [.report (some ⟨0, 0⟩) ⟨1, 0⟩ (.matched blank false)]) := by
    subst isWatched
    rw [perform, get?_absence_negation]
    rfl
  have hears : ∀ tasks, ({ watched with agenda := tasks } : Engine).receive ⟨0, 0⟩ ⟨1, 0⟩
      (.matched blank false) =
      (({ watched with agenda := tasks } : Engine).update ⟨0, 0⟩ fun _ =>
        .within (some ⟨1, 0⟩) deadline (some blank), []) := by
    intro tasks
    rw [receive, live]
    subst isWatched
    rfl
  rw [Function.iterate_succ_apply, Function.iterate_one, step_of_agenda isAgenda, tells,
    step_of_agenda rfl, perform, hears, update]
  subst isWatched
  simp only [Casing.engine, noTasks]
  rw [@Pool.modify_front _ _ _ _ ⟨0, 0⟩
    ⟨0, none, 0, blank, .within (some ⟨1, 0⟩) deadline held⟩ rfl]
  rfl

variable {bounded : CompiledPattern} {law : RowLaw bounded} {moment horizon : Nat}

/-- With the first match of the pattern its absence is over. -/
theorem breaks_absence
    (table : bounded.Sound)
    (due : Due law moment horizon
      ((Casing.absence blank duration deadline larger child held afterwards).engine inner))
    {sender : Ticket}
    {bindings : Row}
    {isLast : Bool}
    {rest : List Task}
    (isAgenda : inner.agenda = .report none sender (.matched bindings isLast) :: rest) :
    let casing := Casing.absence blank duration deadline larger child held afterwards
    let broken := step^[3] (casing.engine inner)
    broken.root = none ∧ broken.agenda = rest.map casing.task ++ afterwards ∧
      broken.Lifeless ∧ Quiet broken.agenda ∧ broken.completed = inner.completed := by
  intro casing broken
  have outAgenda := @Casing.agenda_engine_of_report casing inner _ _ _ isAgenda
  have heard : (casing.engine inner).receive casing.owner (casing.ticket sender)
      (.matched bindings isLast) =
      ((casing.engine inner).release [⟨1, 0⟩],
        [.report (some ⟨0, 0⟩) ⟨1, 0⟩ (.failed true)]) := by
    refine (receive_absence _ _).trans ?_
    rw [receiveNegation, finish, get?_absence_negation]
  have first : (casing.engine inner).step =
      { (casing.engine inner).release [⟨1, 0⟩] with
        agenda := .report (some ⟨0, 0⟩) ⟨1, 0⟩ (.failed true) ::
          (rest.map casing.task ++ afterwards) } := by
    rw [step_of_agenda outAgenda, perform, heard]
    rfl
  have isBroken : broken = (casing.engine inner).step.step.step := rfl
  have dueFirst := due.step table
  rw [isBroken]
  generalize (casing.engine inner).step = middle at first dueFirst
  have parentLive : ∃ owner, middle.states.get? ⟨0, 0⟩ = some owner := by
    have ready := dueFirst
    unfold Due at ready
    simp only [first] at ready
    obtain ⟨gap, coherent, reports, _⟩ := ready
    generalize isReceiver : (some ⟨0, 0⟩ : Option Ticket) = receiver at reports
    cases reports with
    | failed =>
        obtain ⟨owner, _, live, _⟩ :=
          coherent.linked.adopted (.inr rfl) List.not_mem_nil isReceiver.symm
        exact ⟨owner, first ▸ live⟩
  have bound : middle.states.get? ⟨0, 0⟩ =
      some ⟨0, none, 0, blank, .within (some ⟨1, 0⟩) deadline held⟩ := by
    obtain ⟨owner, live⟩ := parentLive
    rw [live]
    have before : (casing.engine inner).states.get? ⟨0, 0⟩ = some owner :=
      get?_of_release (by rw [first] at live; exact live)
    exact before.symm.trans get?_absence
  have isNode : middle.pattern.nodes[0]? = some (.within 1 duration true) := by
    rw [first]
    exact congrArg (fun pattern => pattern.nodes[0]?)
      (SameStanding.release (casing.engine inner) [⟨1, 0⟩]).pattern
  have passes : middle.receive ⟨0, 0⟩ ⟨1, 0⟩ (.failed true) =
      (middle.release [⟨0, 0⟩], [.report none ⟨0, 0⟩ (.failed true)]) := by
    rw [receive, bound]
    simp only [nodeOf, isNode, receiveWithin, finish, bound]
  have second : middle.step =
      { middle.release [⟨0, 0⟩] with
        agenda := .report none ⟨0, 0⟩ (.failed true) ::
          (rest.map casing.task ++ afterwards) } := by
    have isMiddle : middle.agenda = .report (some ⟨0, 0⟩) ⟨1, 0⟩ (.failed true) ::
        (rest.map casing.task ++ afterwards) := by rw [first]
    rw [step_of_agenda isMiddle, perform, passes]
    rfl
  obtain ⟨rootless, isRest, lifeless, quiet⟩ :=
    (dueFirst.step table).lifeless_of_last table (by rw [second]) rfl
  refine ⟨rootless, isRest, lifeless, isRest ▸ quiet, ?_⟩
  have third : middle.step.step.completed = middle.step.completed := by
    rw [step_of_agenda (by rw [second])]
    rfl
  calc middle.step.step.completed
      _ = middle.step.completed := third
      _ = middle.completed := by
        rw [second]
        exact (SameStanding.release middle [⟨0, 0⟩]).completed
      _ = (casing.engine inner).completed := by
        rw [first]
        exact (SameStanding.release (casing.engine inner) [⟨1, 0⟩]).completed

variable {plain : CompiledPattern} {lawInside : RowLaw plain} {momentInside horizonInside : Nat}

/--
Where a pattern comes to rest on its own, its absence still stands and nothing was completed, or it
is over and something was.
-/
theorem reaches_absence
    (table : plain.Sound)
    (tableAround : bounded.Sound)
    (timeless : plain.Timeless)
    (due : Due lawInside momentInside horizonInside inner)
    (dueAround : Due law moment horizon
      ((Casing.absence blank duration deadline larger child held afterwards).engine inner))
    (noneYet : inner.completed = [])
    (steps : Nat)
    (atRest : (step^[steps] inner).isAtRest = true) :
    Reaches (steps + 2 + afterwards.length)
      ((Casing.absence blank duration deadline larger child held afterwards).engine inner)
      fun outer =>
        ((step^[steps] inner).completed = [] ∧
          ∃ left, outer = (Casing.absence blank duration deadline larger left held
            afterwards).engine (step^[steps] inner)) ∨
        ((step^[steps] inner).completed ≠ [] ∧
          outer.isAtRest = true ∧ outer.root = none ∧ outer.completed = []) := by
  induction steps generalizing inner child with
  | zero => exact (Reaches.now (.inl ⟨noneYet, child, rfl⟩)).mono (Nat.zero_le _)
  | succ steps inductionHypothesis =>
      have enough := length_le_of_isAtRest atRest
      rw [Function.iterate_succ_apply] at atRest ⊢
      have dueNext := due.step table
      cases isAgenda : inner.agenda with
      | nil =>
          have fixed := step_of_isAtRest (List.isEmpty_iff.mpr isAgenda)
          rw [fixed, Function.iterate_fixed fixed]
          exact (Reaches.now (.inl ⟨noneYet, child, rfl⟩)).mono (Nat.zero_le _)
      | cons task rest =>
          by_cases out : ∃ sender signal, task = .report none sender signal
          · obtain ⟨sender, signal, isTask⟩ := out
            subst isTask
            cases signal with
            | matched bindings isLast =>
                obtain ⟨rootless, isRest, lifeless, quiet, sameMatches⟩ :=
                  breaks_absence tableAround dueAround isAgenda
                have someNow : (step^[steps] inner.step).completed ≠ [] := by
                  have before := prefix_completed_iterate inner.step steps
                  intro isNil
                  rw [isNil, List.prefix_nil, step_of_agenda isAgenda] at before
                  exact absurd before (by simp [perform, conclude])
                have reaches := (reaches_of_lifeless lifeless quiet)
                rw [isRest, List.length_append, List.length_map] at reaches
                rw [isAgenda, List.length_cons] at enough
                refine (reaches.step.step.step.imp ?_).mono (by omega)
                rintro reached isReached
                rw [isReached]
                exact .inr ⟨someNow, rfl, rootless, sameMatches.trans noneYet⟩
            | failed restartable =>
                have kept := @keeps_absence blank duration deadline larger child held afterwards
                  inner _ _ _ isAgenda
                have dueAfter := dueAround.step tableAround
                rw [kept] at dueAfter
                have noneNow : inner.step.completed = [] := by
                  rw [step_of_agenda isAgenda]
                  exact noneYet
                have later := inductionHypothesis dueNext dueAfter noneNow atRest
                rw [← kept] at later
                exact later.step.mono (by omega)
          · have inside : ∀ sender signal, task ≠ .report none sender signal :=
              fun sender signal isTask => out ⟨sender, signal, isTask⟩
            have kept := @Casing.step_engine
              (Casing.absence blank duration deadline larger child held afterwards) inner
              (due.kept.pattern ▸ timeless) _ _ isAgenda inside
            have dueAfter := dueAround.step tableAround
            rw [kept] at dueAfter
            have noneNow := (completed_step isAgenda inside).trans noneYet
            have later := inductionHypothesis dueNext dueAfter noneNow atRest
            rw [← kept] at later
            exact later.step.mono (by omega)

end Steps

section Calls

variable {schema : Schema} {expr around : PatternExpr} {plain bounded : CompiledPattern}
  {blank : Row} {duration : Nat} {deadline : Int} {limit patience larger : Nat} {now : Int}
  {calls : List Call} {seen : List Row} {inner outer : Engine}

/--
The absence of a pattern is held as long as the pattern has completed nothing, neither among the
matches seen so far nor since, and is over otherwise.
-/
def Watches (blank : Row) (duration : Nat) (deadline : Int) (larger : Nat) (seen : List Row)
    (inner outer : Engine) : Prop :=
  (seen ++ inner.completed = [] ∧
    ∃ child, outer =
      (Casing.absence blank duration deadline larger child (some blank) []).engine inner) ∨
  (seen ++ inner.completed ≠ [] ∧ outer.root = none ∧ outer.completed = [])

/-- The absence of a pattern is held when both have started, unless the pattern matched. -/
theorem start_absence
    (success : CompiledPattern.compile schema expr = .ok plain)
    (successAround : CompiledPattern.compile schema around = .ok
      (plain.behind [.within 1 duration true, .negation 2]))
    (timeless : plain.Timeless)
    (returned : (Engine.start plain limit patience now).isAtRest = true)
    (enough : patience + 7 ≤ larger) :
    let outer := Engine.start (plain.behind [.within 1 duration true, .negation 2]) limit larger now
    outer.isAtRest = true ∧
      Watches plain.blank duration (Progress.deadlineAfter now duration) larger []
        (Engine.start plain limit patience now) outer := by
  have table := CompiledPattern.sound_of_compile success
  have tableAround := CompiledPattern.sound_of_compile successAround
  have leads := iterate_opened_absence plain duration limit patience larger now
  have due := due_opened table (RowLaw.width plain) limit patience now
  have dueAround :=
    (due_opened tableAround (RowLaw.width _) limit larger now).performTasks tableAround 2
  rw [performTasks_eq_iterate, leads] at dueAround
  have isStarted : Engine.start plain limit patience now =
      step^[patience] (opened plain limit patience now) := by
    rw [start_eq, settle, performTasks_eq_iterate]
    rfl
  rw [isStarted] at returned ⊢
  have reaches := reaches_absence table tableAround timeless due dueAround rfl patience returned
  have arrives : Reaches 2
      (opened (plain.behind [.within 1 duration true, .negation 2]) limit larger now)
      fun reached => reached = step^[2]
        (opened (plain.behind [.within 1 duration true, .negation 2]) limit larger now) :=
    ⟨2, Nat.le_refl 2, rfl⟩
  rw [← leads] at reaches
  refine Reaches.settle ((arrives.bind fun isReached => isReached ▸ reaches).bind ?_) (by
    exact (by omega : 2 + (patience + 2 + 1) + 2 ≤ larger))
  rintro middle (⟨noneYet, left, isMiddle⟩ | ⟨some, atRest, rootless, noneLeft⟩)
  · refine ⟨2, Nat.le_refl 2, ?_⟩
    rw [isMiddle, holds_absence (List.isEmpty_iff.mp returned)]
    refine ⟨?_, .inl ⟨noneYet, left, rfl⟩⟩
    simp [isAtRest, Casing.engine, Casing.absence, List.isEmpty_iff.mp returned]
  · exact (Reaches.now ⟨atRest, .inr ⟨some, rootless, noneLeft⟩⟩).mono (Nat.zero_le 2)

/-- Before the deadline each call finds the absence held, or over because the pattern matched. -/
theorem call_absence
    (success : CompiledPattern.compile schema expr = .ok plain)
    (successAround : CompiledPattern.compile schema around = .ok bounded)
    (timeless : plain.Timeless)
    (run : Run plain limit patience now calls inner)
    (runAround : Run bounded limit larger now calls outer)
    (watches : Watches blank duration deadline larger seen inner outer)
    {next : Call}
    (goesOn : next ≠ .stop)
    (inTime : ∀ told, next = .time told → max inner.now told < deadline)
    (returned : (inner.call next).1.isAtRest = true)
    (enough : patience + 7 ≤ larger) :
    (outer.call next).1.isAtRest = true ∧ (outer.call next).2 = [] ∧
      Watches blank duration deadline larger (seen ++ (inner.call next).2) (inner.call next).1
        (outer.call next).1 := by
  have table := CompiledPattern.sound_of_compile success
  have tableAround := CompiledPattern.sound_of_compile successAround
  have sameMatches : (inner.begun next).completed = inner.completed := by
    cases next with
    | stop => exact absurd rfl goesOn
    | _ => rfl
  have patient : (inner.begun next).patience = patience :=
    (patience_begun inner next).trans run.terms.2.2.1
  have isSettled : (inner.begun next).settle = step^[patience] (inner.begun next) := by
    rw [settle, performTasks_eq_iterate, patient]
  rcases watches with ⟨noneYet, child, isCased⟩ | ⟨some, rootless, noneLeft⟩
  · obtain ⟨noneSeen, noneNew⟩ := List.append_eq_nil_iff.mp noneYet
    subst isCased
    generalize isCasing : Casing.absence blank duration deadline larger child (.some blank) [] =
      casing at *
    have due := run.due_begun table (RowLaw.width plain) next fun _ => trivial
    have dueAround := runAround.due_begun tableAround (RowLaw.width bounded) next fun _ => trivial
    have begins : (casing.engine inner).begun next = casing.engine (inner.begun next) := by
      subst isCasing
      refine Casing.begun_engine rfl (run.deadlines_of_timeless table timeless) goesOn ?_
      intro entry member
      cases List.mem_singleton.mp member
      exact inTime
    rw [begins] at dueAround
    rw [isAtRest_call, isSettled] at returned
    subst isCasing
    have reaches := reaches_absence table tableAround timeless due dueAround
      (sameMatches.trans noneNew) patience returned
    rw [← begins] at reaches
    have noTasks := List.isEmpty_iff.mp returned
    obtain ⟨restsAround, watches⟩ := Reaches.settle
      (reaches.imp fun settled ends => ⟨by
        rcases ends with ⟨_, left, isSettledAround⟩ | ⟨_, atRest, _⟩
        · simp [isSettledAround, isAtRest, Casing.engine, Casing.absence, noTasks]
        · exact atRest, ends⟩)
      (by
        rw [patience_begun]
        exact (by omega : patience + 2 + 0 ≤ larger))
    rw [isAtRest_call, call_eq goesOn, call_eq goesOn, isSettled]
    refine ⟨restsAround, ?_⟩
    rcases watches with ⟨stillNone, left, isSettledAround⟩ | ⟨some, _, stillRootless, noneLeft⟩
    · rw [isSettledAround]
      refine ⟨stillNone, .inl ⟨?_, left, rfl⟩⟩
      rw [noneSeen]
      simpa [handOut] using stillNone
    · refine ⟨noneLeft, .inr ⟨?_, stillRootless, rfl⟩⟩
      rw [noneSeen]
      simpa [handOut] using some
  · obtain ⟨atRestAround, stillRootless, noneLeftAround, handsOut⟩ :=
      call_of_finished (Run.wellFormed successAround runAround) runAround.atRest rootless next
    refine ⟨atRestAround, ?_, .inr ⟨?_, stillRootless, noneLeftAround⟩⟩
    · rw [handsOut, noneLeft]
      cases next <;> rfl
    · have before := prefix_completed_iterate (inner.begun next) patience
      rw [sameMatches, ← isSettled] at before
      rw [call_eq goesOn]
      intro isNil
      rw [List.append_assoc, List.append_eq_nil_iff, List.append_eq_nil_iff] at isNil
      obtain ⟨noneSeen, noneNow, _⟩ := isNil
      refine some (List.append_eq_nil_iff.mpr ⟨noneSeen, List.prefix_nil.mp ?_⟩)
      exact (show (inner.begun next).settle.completed = [] from noneNow) ▸ before

/-- Before the deadline the absence of a pattern runs as the pattern does, and hands out nothing. -/
theorem runs_absence
    (success : CompiledPattern.compile schema expr = .ok plain)
    (successAround : CompiledPattern.compile schema around = .ok
      (plain.behind [.within 1 duration true, .negation 2]))
    (timeless : plain.Timeless)
    (goesOn : Call.stop ∉ calls)
    (early : ¬Overdue (Progress.deadlineAfter now duration) now calls)
    (enough : patience + 7 ≤ larger)
    (run : Run plain limit patience now calls inner) :
    ∃ outer,
      Run (plain.behind [.within 1 duration true, .negation 2]) limit larger now calls outer ∧
      Watches plain.blank duration (Progress.deadlineAfter now duration) larger
        ((Engine.start plain limit patience now).makeCalls calls).2.flatten inner outer ∧
      ((Engine.start (plain.behind [.within 1 duration true, .negation 2]) limit larger
        now).makeCalls calls).2 = calls.map fun _ => [] := by
  induction run with
  | start returned =>
      obtain ⟨atRest, watches⟩ := start_absence success successAround timeless returned enough
      exact ⟨_, .start atRest, watches, rfl⟩
  | @call calls inner next run returned inductionHypothesis =>
      rw [overdue_append_singleton, not_or] at early
      obtain ⟨earlyBefore, inTime⟩ := early
      obtain ⟨outer, runAround, watches, replies⟩ :=
        inductionHypothesis (fun member => goesOn (List.mem_append_left _ member)) earlyBefore
      obtain ⟨atRest, noReply, stillWatches⟩ :=
        call_absence success successAround timeless run runAround watches
          (fun isStop => goesOn (by simp [isStop]))
          (fun told isTime => Int.lt_of_not_ge fun isLate =>
            inTime ⟨told, isTime, run.terms.2.2.2 ▸ isLate⟩)
          returned enough
      refine ⟨_, .call next runAround atRest, ?_, ?_⟩
      · rw [makeCalls_append, ← run.eq_makeCalls, List.flatten_append]
        simpa [makeCalls] using stillWatches
      · rw [makeCalls_append, ← runAround.eq_makeCalls, replies, List.map_append]
        simp [makeCalls, noReply]

/-- With the first time at or after the deadline an absence that is held matches. -/
theorem ends_absence
    (success : CompiledPattern.compile schema expr = .ok plain)
    (successAround : CompiledPattern.compile schema around = .ok bounded)
    (timeless : plain.Timeless)
    (run : Run plain limit patience now calls inner)
    (runAround : Run bounded limit larger now calls outer)
    (watches : Watches blank duration deadline larger seen inner outer)
    {told : Int}
    (isLate : deadline ≤ max inner.now told)
    (enough : 2 ≤ larger) :
    (outer.call (.time told)).1.isAtRest = true ∧ (outer.call (.time told)).1.root = none ∧
      (outer.call (.time told)).2 =
        if (seen ++ inner.completed).isEmpty then [blank] else [] := by
  rcases watches with ⟨noneYet, child, isCased⟩ | ⟨some, rootless, noneLeft⟩
  · have noDeadlines :=
      run.deadlines_of_timeless (CompiledPattern.sound_of_compile success) timeless
    have isDue : ∀ present : Int, deadline ≤ present →
        StateIndex.upTo outer.deadlines present = [⟨0, 0⟩] := by
      intro present isLate
      subst isCased
      simp [StateIndex.upTo, Casing.engine, Casing.absence, noDeadlines, StateIndex.relocate,
        isLate]
    have isLateAround : deadline ≤ max outer.now told := by
      rw [isCased]
      exact isLate
    obtain ⟨atRest, rootless, handsOut⟩ := call_of_expired runAround.atRest
      (isCased ▸ get?_absence) (isDue _ isLateAround) (runAround.terms.2.2.1 ▸ enough)
    refine ⟨atRest, rootless, handsOut.trans ?_⟩
    rw [noneYet, isCased]
    exact congrArg (· ++ [blank]) (List.append_eq_nil_iff.mp noneYet).2
  · obtain ⟨atRest, stillRootless, _, handsOut⟩ :=
      call_of_finished (Run.wellFormed successAround runAround) runAround.atRest rootless
        (.time told)
    refine ⟨atRest, stillRootless, handsOut.trans ?_⟩
    rw [noneLeft, if_neg (by simpa [List.isEmpty_iff] using some)]

/--
An absence is reported exactly when it held.  Until a time at or after the deadline is told, the
absence of a pattern without time hands out nothing.  When such a time is told, it hands out one
match without bound tags if the pattern has completed nothing before, and nothing otherwise.  Then
nothing of it is left.
-/
theorem absence_reported_when_held
    (success : CompiledPattern.compile schema expr = .ok plain)
    (timeless : expr.isTimeless = true)
    (duration : Nat) :
    ∃ bounded, CompiledPattern.compile schema (.within (.negation expr) duration) = .ok bounded ∧
      ∀ (limit : Nat) (now : Int),
        let deadline := Progress.deadlineAfter now (min duration CompiledPattern.longestDuration)
        (0 ≤ now ∨ duration ≤ CompiledPattern.longestDuration →
          deadline = min (now + duration) Progress.lastMoment) ∧
        ∀ {calls : List Call}, Call.stop ∉ calls → ¬Overdue deadline now calls →
          ∀ {patience larger : Nat} {inner : Engine}, patience + 7 ≤ larger →
            Run plain limit patience now calls inner →
              let made := (Engine.start bounded limit larger now).makeCalls calls
              let earlier :=
                ((Engine.start plain limit patience now).makeCalls calls).2.flatten ++
                  inner.completed
              Run bounded limit larger now calls made.1 ∧
                made.2 = calls.map (fun _ => []) ∧
                ∀ (told : Int) (after : List Call), deadline ≤ max inner.now told →
                  let ended := made.1.makeCalls (.time told :: after)
                  Run bounded limit larger now (calls ++ .time told :: after) ended.1 ∧
                    ended.1.isFinished = true ∧ ended.1.stateCount = 0 ∧
                    ended.2 = (if earlier.isEmpty then [bounded.blank] else []) ::
                      after.map fun _ => [] := by
  have isBounded := @CompiledPattern.compile_within_negation schema expr duration
  rw [success] at isBounded
  have isTimeless : plain.Timeless := CompiledPattern.timeless_of_compile success timeless
  refine ⟨_, isBounded, fun limit now => ⟨deadlineAfter_min_longestDuration now duration, ?_⟩⟩
  intro calls goesOn early patience larger inner enough run made earlier
  obtain ⟨outer, runAround, watches, replies⟩ :=
    runs_absence success isBounded isTimeless goesOn early enough run
  have isMade : made.1 = outer := runAround.eq_makeCalls.symm
  rw [isMade, CompiledPattern.blank_behind]
  refine ⟨runAround, replies, ?_⟩
  intro told after isLate ended
  obtain ⟨atRest, rootless, handsOut⟩ :=
    ends_absence success isBounded isTimeless run runAround watches isLate (by omega)
  have endedRun := Run.call (.time told) runAround atRest
  obtain ⟨runs, stillRootless, noReplies⟩ :=
    endedRun.makeCalls_of_finished isBounded rootless rfl after
  rw [List.append_assoc, List.singleton_append] at runs
  refine ⟨runs, ?_, ?_, ?_⟩
  · exact Option.isNone_iff_eq_none.mpr stillRootless
  · exact (Run.wellFormed isBounded runs).stateCount_of_finished stillRootless
  · exact congrArg₂ List.cons handsOut noReplies

end Calls

/-- The absence of an event is reported when the deadline is told and none was shown. -/
theorem absence_reported_when_held_tick :
    ∃ bounded,
      CompiledPattern.compile tickSchema
          (.within (.negation (.filter ⟨some "t", "Tick", none⟩)) 5) = .ok bounded ∧
        let made := (Engine.start bounded 10 17 0).makeCalls [.time 4]
        made.2 = [[]] ∧ (made.1.makeCalls [.time 5, .event tick]).1.isFinished = true ∧
          (made.1.makeCalls [.time 5, .event tick]).2 = [[[Value.null]], []] := by
  have compiles :
      CompiledPattern.compile tickSchema (.filter ⟨some "t", "Tick", none⟩) = .ok oneTick := rfl
  obtain ⟨bounded, isBounded, reports⟩ := absence_reported_when_held compiles rfl 5
  refine ⟨bounded, isBounded, ?_⟩
  have early : ¬Overdue (Progress.deadlineAfter 0 (min 5 CompiledPattern.longestDuration)) 0
      ([] ++ [.time 4]) := by
    rw [overdue_append_singleton]
    rintro (never | ⟨told, isTime, isLate⟩)
    · exact not_overdue_nil never
    · cases isTime
      exact absurd isLate (by decide)
  have run : Run oneTick 10 10 0 ([] ++ [.time 4])
      ((Engine.start oneTick 10 10 0).call (.time 4)).1 :=
    .call (.time 4) (.start rfl) (by cbv)
  obtain ⟨_, alike⟩ := reports 10 0
  obtain ⟨_, replies, ends⟩ := alike (by simp) early (Nat.le_refl 17) run
  obtain ⟨_, isOver, _, lastReplies⟩ := ends 5 [.event tick] (Int.le_max_right _ _)
  have sameBlank : bounded.blank = [Value.null] := by
    have isCompiled := isBounded
    cases isCompiled
    rfl
  refine ⟨replies, isOver, lastReplies.trans ?_⟩
  rw [sameBlank]
  cbv

/-- The absence of an event inside a time bound that is longer than any time, compiled. -/
def noTickLong : CompiledPattern :=
  oneTick.behind [.within 1 CompiledPattern.longestDuration true, .negation 2]

/-- A duration counts as the longest one, so that an absence from before zero is reported early. -/
theorem longest_duration_reports_early :
    CompiledPattern.compile tickSchema
        (.within (.negation (.filter ⟨some "t", "Tick", none⟩)) 9223372036854775808) =
        .ok noTickLong ∧
      (9223372036854775806 : Int) < min (-1 + 9223372036854775808) Progress.lastMoment ∧
      ((Engine.start noTickLong 10 10 (-1)).makeCalls [.time 9223372036854775806]).2 =
        [[[Value.null]]] := by
  refine ⟨rfl, by decide, by cbv⟩

end Engine
end EventQuery
