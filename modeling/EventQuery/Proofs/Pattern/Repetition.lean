import EventQuery.Proofs.Pattern.Restarting
import EventQuery.Proofs.Pattern.Rounds

namespace EventQuery

/-!
# What repetitions accumulate

A repetition counts the matches of its operand and holds what they have at the inner slots, from the
first one on.  It reports with each match once there are enough of them, and for the last time when
there are as many as it allows.
-/

/-- Whether a task reports a match of a state. -/
def Task.isMatchOf (sender : Ticket) : Task → Bool
  | .report _ teller (.matched _ _) => teller == sender
  | _ => false

namespace Engine

section Turns

variable {compiled : CompiledPattern} {law : RowLaw compiled} {moment horizon : Nat}
  {engine : Engine} {task : Task} {rest : List Task} {ticket : Ticket} {state : PatternState}
  {child least rounds : Nat} {most : Option Nat} {innerSlots : List Nat} {running : Option Ticket}
  {collected : Row}

/-- What one task does to the live state of a repetition that has made some rounds. -/
inductive RoundTurn (ticket : Ticket) (state : PatternState) (least : Nat) (most : Option Nat)
    (innerSlots : List Nat) (rounds : Nat) (collected : Row) (task : Task)
    (answer : Engine × List Task) : Prop where
  /-- No match is reported to it, and it reports none. -/
  | waits :
      task.heardBy ticket = none → answer.2.filter (Task.isMatchOf ticket) = [] →
        (∀ found, answer.1.states.get? ticket = some found →
          found.bindings = state.bindings ∧
            ∃ running, found.progress = .repetition running rounds collected) →
          RoundTurn ticket state least most innerSlots rounds collected task answer
  /-- A round is collected, and reported if there are enough of them. -/
  | collects {row : Row} :
      task.heardBy ticket = some row →
        answer.2.filter (Task.isMatchOf ticket) =
            (if most = some (rounds + 1) ∨ least ≤ rounds + 1 then
              [.report state.parent ticket
                (.matched (collect collected row innerSlots) (most = some (rounds + 1)))]
            else []) →
          (∀ found, answer.1.states.get? ticket = some found →
            most ≠ some (rounds + 1) ∧ found.bindings = state.bindings ∧
              ∃ running, found.progress =
                .repetition running (rounds + 1) (collect collected row innerSlots)) →
            RoundTurn ticket state least most innerSlots rounds collected task answer

/-- A match that is reported to a repetition is collected. -/
private theorem roundTurn_matched
    (live : engine.states.get? ticket = some state)
    (atEngine : engine.nodeOf state = some (.repetition child least most innerSlots))
    (shape : state.progress = .repetition running rounds collected)
    (sender : Ticket)
    (row : Row)
    (isLast : Bool) :
    RoundTurn ticket state least most innerSlots rounds collected
      (.report (some ticket) sender (.matched row isLast))
      (engine.perform (.report (some ticket) sender (.matched row isLast))) := by
  have isHeard : Task.heardBy ticket (.report (some ticket) sender (.matched row isLast)) =
      some row := if_pos rfl
  have answer : engine.perform (.report (some ticket) sender (.matched row isLast)) =
      engine.receiveRepetition ticket state least most innerSlots running rounds collected
        (.matched row isLast) := by
    simp only [perform, receive, live, atEngine, shape]
  have counts := get?_update_self live fun _ =>
    Progress.repetition (if isLast then none else running) (rounds + 1)
      (collect collected row innerSlots)
  rw [answer]
  simp only [receiveRepetition]
  split
  next isMost =>
      refine .collects isHeard ?_ fun found stillLive => ?_
      · simp [finish, counts, isMost, Task.isMatchOf, PatternState.advance]
      · rw [get?_finish] at stillLive
        cases stillLive
  next notMost =>
      have unfolds : ∀ found,
          (engine.update ticket fun _ => Progress.repetition (if isLast then none else running)
            (rounds + 1) (collect collected row innerSlots)).states.get? ticket = some found →
            most ≠ some (rounds + 1) ∧ found.bindings = state.bindings ∧
              ∃ running, found.progress =
                .repetition running (rounds + 1) (collect collected row innerSlots) := by
        intro found stillLive
        cases counts.symm.trans stillLive
        exact ⟨notMost, rfl, _, rfl⟩
      split
      next enough =>
          refine .collects isHeard ?_ unfolds
          simp [notMost, enough, Task.isMatchOf, reportMatch]
      next tooFew =>
          refine .collects isHeard ?_ unfolds
          simp [notMost, tooFew, Task.isMatchOf]

/-- What a task does to a repetition that it is about. -/
private theorem roundTurn_of_subject
    (due : Due law moment horizon engine)
    (isAgenda : engine.agenda = task :: rest)
    (live : engine.states.get? ticket = some state)
    (atNode : compiled.nodes[state.node]? = some (.repetition child least most innerSlots))
    (shape : state.progress = .repetition running rounds collected)
    (isSubject : task.subject? = some ticket) :
    RoundTurn ticket state least most innerSlots rounds collected task (engine.perform task) := by
  have kept := due.kept
  have atEngine : engine.nodeOf state = some (.repetition child least most innerSlots) := by
    rw [nodeOf, kept.pattern, atNode]
  have ready := due
  rw [Due, isAgenda] at ready
  -- What leaves the state alone, and reports nothing for it.
  have rests : task.heardBy ticket = none → engine.perform task = (engine, []) →
      RoundTurn ticket state least most innerSlots rounds collected task (engine.perform task) := by
    intro unheard nothing
    rw [nothing]
    refine .waits unheard rfl fun found stillLive => ?_
    cases live.symm.trans stillLive
    exact ⟨rfl, running, shape⟩
  have starts : ∀ bindings : Row, task.heardBy ticket = none →
      engine.perform task = engine.startChild ticket child bindings →
        RoundTurn ticket state least most innerSlots rounds collected task
          (engine.perform task) := by
    intro bindings unheard start
    rw [start]
    refine .waits unheard rfl fun found stillLive => ?_
    have created := get?_create_of_live kept.sound child (some ticket) bindings live
    cases (get?_update_self created (Progress.withChild _)).symm.trans stillLive
    refine ⟨rfl, ?_⟩
    simp only [PatternState.advance, shape, Progress.withChild]
    exact ⟨_, rfl⟩
  cases task with
  | activate other =>
      cases isSubject
      refine starts (roundBindings collected innerSlots) rfl ?_
      simp only [perform, activate, live, atEngine, shape]
  | operand owner other =>
      cases isSubject
      have ownerLive : engine.states.contains owner = true := by
        refine Decidable.byContradiction fun ownerGone => ?_
        obtain ⟨_, hasOwner⟩ := ready.2 (.operand owner ticket) List.mem_cons_self
        cases (ready.1.get?_of_ownerless hasOwner ownerGone).symm.trans live
      refine starts (roundBindings collected innerSlots) rfl ?_
      simp only [perform, if_pos ownerLive, activate, live, atEngine, shape]
  | absence other =>
      cases isSubject
      obtain ⟨negated, isNegation⟩ :=
        (ready.2 (.absence ticket) List.mem_cons_self).2 live
      cases atNode.symm.trans isNegation
  | report receiver sender signal =>
      cases isSubject
      cases signal with
      | matched row isLast => exact roundTurn_matched live atEngine shape sender row isLast
      | failed restartable =>
          refine .waits rfl ?_ fun found stillLive => ?_
          · simp [perform, receive, live, atEngine, shape, receiveRepetition, finish,
              Task.isMatchOf]
          · simp only [perform, receive, live, atEngine, shape, receiveRepetition,
              get?_finish] at stillLive
            cases stillLive
  | rearm other =>
      cases isSubject
      exact rests rfl (by simp only [perform, rearm, live, atEngine])
  | iterate other =>
      cases isSubject
      cases running with
      | none =>
          refine starts (roundBindings collected innerSlots) rfl ?_
          simp only [perform, iterate, live, atEngine, shape]
      | some operand => exact rests rfl (by simp only [perform, iterate, live, atEngine, shape])
  | offer other event =>
      cases isSubject
      exact rests rfl (by simp only [perform, offer, live, atEngine])
  | expire other =>
      cases isSubject
      exact rests rfl (by simp only [perform, expire, live, shape])

/-- What a task does to a repetition. -/
theorem roundTurn
    (table : compiled.Sound)
    (due : Due law moment horizon engine)
    (isAgenda : engine.agenda = task :: rest)
    (live : engine.states.get? ticket = some state)
    (atNode : compiled.nodes[state.node]? = some (.repetition child least most innerSlots))
    (shape : state.progress = .repetition running rounds collected) :
    RoundTurn ticket state least most innerSlots rounds collected task (engine.perform task) := by
  have ready := due
  rw [Due, isAgenda] at ready
  have outcome := outcome_perform table ready
  by_cases isSubject : task.subject? = some ticket
  · exact roundTurn_of_subject due isAgenda live atNode shape isSubject
  · refine .waits (Task.heardBy_eq_none ?_) ?_ fun found stillLive => ?_
    · rintro sender signal rfl
      exact isSubject rfl
    · refine List.filter_eq_nil_iff.mpr fun next member isMatch => isSubject ?_
      cases next with
      | report receiver sender signal =>
          obtain ⟨isSender, _⟩ := outcome.of_report member
          cases signal with
          | matched row isLast => exact beq_iff_eq.mp isMatch ▸ isSender
          | failed restartable => cases isMatch
      | _ => cases isMatch
    · rcases outcome.live_cases stillLive with ⟨notIssued, _⟩ | ⟨_, unchanged⟩ | ⟨same, _⟩
      · exact absurd (.inl ⟨state, live⟩) notIssued
      · cases live.symm.trans unchanged
        exact ⟨rfl, running, shape⟩
      · exact absurd same isSubject

end Turns

section Tally

variable {compiled : CompiledPattern} {heard : Ticket → List Row} {engine : Engine}

/-- Repetitions have counted and accumulated all that they have heard of. -/
structure Tally (compiled : CompiledPattern) (heard : Ticket → List Row) (engine : Engine) :
    Prop where
  counted :
    ∀ {ticket : Ticket} {state : PatternState} {child least : Nat} {most : Option Nat}
        {innerSlots : List Nat},
      engine.states.get? ticket = some state →
        compiled.nodes[state.node]? = some (.repetition child least most innerSlots) →
          ∃ running collected,
            state.progress = .repetition running (heard ticket).length collected ∧
              (∀ greatest ∈ most, (heard ticket).length < greatest) ∧
                Row.Accumulates innerSlots state.bindings (heard ticket) collected
  unheard : ∀ {ticket : Ticket}, ¬engine.states.Issued ticket → heard ticket = []

/-- A repetition that has just been created has heard of nothing. -/
theorem counted_of_isFresh
    {schema : Schema}
    {expr : PatternExpr}
    (success : CompiledPattern.compile schema expr = .ok compiled)
    {state : PatternState}
    {child least : Nat}
    {most : Option Nat}
    {innerSlots : List Nat}
    (isFresh : state.IsFresh compiled)
    (isLong : state.bindings.length = compiled.width)
    (atNode : compiled.nodes[state.node]? = some (.repetition child least most innerSlots)) :
    ∃ running collected,
      state.progress = .repetition running 0 collected ∧ (∀ greatest ∈ most, 0 < greatest) ∧
        Row.Accumulates innerSlots state.bindings [] collected := by
  obtain ⟨time, isProgress⟩ := isFresh
  have table := CompiledPattern.sound_of_compile success
  obtain ⟨positive, ordered⟩ := CompiledPattern.bounds_of_compile success atNode
  rw [atNode] at isProgress
  refine ⟨none, _, isProgress, fun greatest isMost =>
    Nat.lt_of_lt_of_le positive (ordered greatest isMost), ?_⟩
  refine accumulates_withEmptySequences fun slot member => ?_
  rw [isLong]
  exact table.slotRange atNode slot member

/-- A round that is collected adds to what was accumulated. -/
private theorem accumulates_collect
    {schema : Schema}
    {expr : PatternExpr}
    (success : CompiledPattern.compile schema expr = .ok compiled)
    {moment horizon : Nat}
    (due : Due (RowLaw.outside compiled) moment horizon engine)
    {ticket : Ticket}
    {state : PatternState}
    {child least rounds : Nat}
    {most : Option Nat}
    {innerSlots : List Nat}
    {running : Option Ticket}
    {collected : Row}
    {founds : List Row}
    (live : engine.states.get? ticket = some state)
    (atNode : compiled.nodes[state.node]? = some (.repetition child least most innerSlots))
    (shape : state.progress = .repetition running rounds collected)
    (accumulates : Row.Accumulates innerSlots state.bindings founds collected)
    (found : Row) :
    Row.Accumulates innerSlots state.bindings (founds ++ [found])
      (collect collected found innerSlots) := by
  have isLong : collected.length = compiled.width := by
    obtain ⟨node, _, fits⟩ := due.kept.fits live
    rw [shape] at fits
    cases fits with
    | repetition rounds => exact rounds.1
  have slotRange := (CompiledPattern.sound_of_compile success).slotRange atNode
  exact accumulates.collect (CompiledPattern.nodup_innerSlots success atNode)
    (isLong ▸ slotRange) found

/-- What a state has heard of after the next task. -/
private theorem recording_of_agenda
    {task : Task}
    {rest : List Task}
    (isAgenda : engine.agenda = task :: rest)
    (ticket : Ticket) :
    engine.recording heard ticket = heard ticket ++ (task.heardBy ticket).toList := by
  rw [recording, isAgenda]
  rfl

/-- A match is reported to live states only. -/
private theorem Tally.recording_eq_nil
    {moment horizon : Nat}
    {law : RowLaw compiled}
    (tally : Tally compiled heard engine)
    (due : Due law moment horizon engine)
    {task : Task}
    {rest : List Task}
    (isAgenda : engine.agenda = task :: rest)
    {ticket : Ticket}
    (notIssued : ¬engine.states.Issued ticket) :
    engine.recording heard ticket = [] := by
  rw [Due, isAgenda] at due
  have unheard : task.heardBy ticket = none := by
    refine Task.heardBy_eq_none ?_
    rintro sender signal rfl
    obtain ⟨gap, coherent, reports, _⟩ := due
    obtain ⟨owner, _, _, _, ownerLive, _⟩ := reports.hears coherent
    exact notIssued (.inl ⟨owner, ownerLive⟩)
  rw [recording_of_agenda isAgenda, unheard, tally.unheard notIssued]
  rfl

/-- A repetition that stays live counts and accumulates what the next task tells it. -/
private theorem Tally.counted_perform
    {schema : Schema}
    {expr : PatternExpr}
    (success : CompiledPattern.compile schema expr = .ok compiled)
    {moment horizon : Nat}
    (due : Due (RowLaw.outside compiled) moment horizon engine)
    (tally : Tally compiled heard engine)
    {task : Task}
    {rest : List Task}
    (isAgenda : engine.agenda = task :: rest)
    {ticket : Ticket}
    {earlier state : PatternState}
    {child least : Nat}
    {most : Option Nat}
    {innerSlots : List Nat}
    (wasLive : engine.states.get? ticket = some earlier)
    (atNode : compiled.nodes[earlier.node]? = some (.repetition child least most innerSlots))
    (live : (engine.perform task).1.states.get? ticket = some state) :
    ∃ running collected,
      state.progress = .repetition running (engine.recording heard ticket).length collected ∧
        (∀ greatest ∈ most, (engine.recording heard ticket).length < greatest) ∧
          Row.Accumulates innerSlots state.bindings (engine.recording heard ticket) collected := by
  have table := CompiledPattern.sound_of_compile success
  obtain ⟨running, collected, shape, fewer, accumulates⟩ := tally.counted wasLive atNode
  rw [recording_of_agenda isAgenda]
  cases roundTurn table due isAgenda wasLive atNode shape with
  | waits unheard _ stays =>
      obtain ⟨sameBindings, later, isProgress⟩ := stays state live
      rw [unheard, sameBindings]
      exact ⟨later, collected, by simpa using isProgress, by simpa using fewer,
        by simpa using accumulates⟩
  | @collects row isHeard _ stays =>
      obtain ⟨notMost, sameBindings, later, isProgress⟩ := stays state live
      have isRecorded : heard ticket ++ (task.heardBy ticket).toList = heard ticket ++ [row] := by
        rw [isHeard, Option.toList_some]
      rw [isRecorded, sameBindings, List.length_append, List.length_singleton]
      refine ⟨later, _, isProgress, fun greatest isMost => ?_,
        accumulates_collect success due wasLive atNode shape accumulates row⟩
      have notGreatest : greatest ≠ (heard ticket).length + 1 := by
        rintro rfl
        exact notMost isMost
      have := fewer greatest isMost
      omega

/-- Repetitions count and accumulate what they hear of next. -/
theorem Tally.step
    {schema : Schema}
    {expr : PatternExpr}
    (success : CompiledPattern.compile schema expr = .ok compiled)
    {moment horizon : Nat}
    (due : Due (RowLaw.outside compiled) moment horizon engine)
    (tally : Tally compiled heard engine) :
    Tally compiled (engine.recording heard) engine.step := by
  have table := CompiledPattern.sound_of_compile success
  cases isAgenda : engine.agenda with
  | nil =>
      have recorded : engine.recording heard = heard := by
        funext ticket
        rw [recording, isAgenda]
        exact List.append_nil (heard ticket)
      rw [step_of_isAtRest (List.isEmpty_iff.mpr isAgenda), recorded]
      exact tally
  | cons task rest =>
      have ready := due
      rw [Due, isAgenda] at ready
      have outcome := outcome_perform table ready
      have keptThen := (due.step table).kept
      rw [step_of_agenda isAgenda] at keptThen ⊢
      constructor
      case counted =>
          intro ticket state child least most innerSlots live atNode
          rcases outcome.live_cases live with ⟨notIssued, isFresh⟩ | ⟨_, wasLive⟩ | ⟨_, issued⟩
          · rw [tally.recording_eq_nil due isAgenda notIssued]
            have isLong : state.bindings.length = compiled.width := keptThen.starts live
            exact counted_of_isFresh success (due.kept.pattern ▸ isFresh) isLong atNode
          · exact tally.counted_perform success due isAgenda wasLive atNode live
          · obtain ⟨earlier, wasLive, sameNode, _⟩ := outcome.evolves.same issued live
            exact tally.counted_perform success due isAgenda wasLive (sameNode ▸ atNode) live
      case unheard =>
          intro ticket notIssued
          exact tally.recording_eq_nil due isAgenda fun issued =>
            notIssued (outcome.evolves.issued issued)

end Tally

section Moments

variable {schema : Schema} {expr : PatternExpr} {compiled : CompiledPattern}
  {limit patience : Nat} {now : Int} {calls : List Call} {heard : Ticket → List Row}
  {engine : Engine} {ticket : Ticket} {state : PatternState} {child least : Nat}
  {most : Option Nat} {innerSlots : List Nat}

private theorem tally_opened
    (success : CompiledPattern.compile schema expr = .ok compiled)
    (limit patience : Nat)
    (now : Int) :
    Tally compiled (fun _ => []) (opened compiled limit patience now) := by
  have sound := (coherent_idle (RowLaw.outside compiled) limit patience now).kept.sound
  refine ⟨?_, fun _ => rfl⟩
  intro ticket state child least most innerSlots live atNode
  rcases get?_create_cases sound live with ⟨_, rfl⟩ | ⟨_, old⟩
  · exact counted_of_isFresh success (isFresh_newState _ _ _ _) List.length_replicate atNode
  · rw [idle, Pool.get?_empty] at old
    cases old

/-- Repetitions have counted and accumulated what they have heard of at every moment of a run. -/
theorem Moment.tally
    (success : CompiledPattern.compile schema expr = .ok compiled)
    (moment : Moment compiled limit patience now calls heard engine) :
    Tally compiled heard engine := by
  have table := CompiledPattern.sound_of_compile success
  induction moment with
  | opened => exact tally_opened success limit patience now
  | step before inductionHypothesis =>
      obtain ⟨_, _, due⟩ := before.due table (RowLaw.outside compiled) fun _ _ => trivial
      exact inductionHypothesis.step success due
  | handOut _ _ inductionHypothesis =>
      exact ⟨inductionHypothesis.counted, inductionHypothesis.unheard⟩
  | call next _ _ inductionHypothesis =>
      cases next with
      | event event => exact ⟨inductionHypothesis.counted, inductionHypothesis.unheard⟩
      | time told => exact ⟨inductionHypothesis.counted, inductionHypothesis.unheard⟩
      | stop =>
          refine ⟨?_, fun notIssued => inductionHypothesis.unheard fun issued =>
            notIssued issued.clear⟩
          intro ticket state child least most innerSlots live
          rw [begun, Engine.stop, Pool.get?_clear] at live
          cases live

/-- A round of a repetition starts without bindings at the inner slots, and else from the start. -/
private theorem get_of_operand
    {moment horizon : Nat}
    (due : Due (RowLaw.outside compiled) moment horizon engine)
    (live : engine.states.get? ticket = some state)
    (atNode : compiled.nodes[state.node]? = some (.repetition child least most innerSlots))
    {operand : Ticket}
    {held : PatternState}
    (operandLive : engine.states.get? operand = some held)
    (hasParent : held.parent = some ticket) :
    held.node = child ∧ (∀ slot ∈ innerSlots, Row.get held.bindings slot = .null) ∧
      ∀ slot, slot ∉ innerSlots → Row.get held.bindings slot = Row.get state.bindings slot := by
  obtain ⟨_, _, coherent⟩ := Ready.exists_coherent due
  obtain ⟨owner, node, ownerLive, atOwner, adopts, _⟩ :=
    coherent.linked.adopted (.inl operandLive) (by simp) hasParent
  cases live.symm.trans ownerLive
  cases atNode.symm.trans atOwner
  generalize state.progress = progress, held.node = number, held.bindings = row at adopts ⊢
  cases adopts with
  | @repetition _ _ _ _ _ _ _ early collected rounds _ =>
      refine ⟨rfl, fun slot member => get_roundBindings_of_mem early member,
        fun slot outside => ?_⟩
      rw [(get_roundBindings early innerSlots slot).resolve_right fun inside => outside inside.1]
      exact rounds.2 _ _ _ _ atNode slot outside

/--
At every moment of a run a live repetition has counted the matches of its operand that it has heard
of, which are fewer than it allows.  It holds at each inner slot the sequence of what these matches
have there, and is else as at its start.  Its operand runs without bindings at the inner slots.

Of a match that the next task reports to it, it reports in turn exactly when there are enough of
them, with the sequences made longer by that match, and for the last time exactly when there are as
many as it allows.  No other task lets it report a match.
-/
theorem Moment.repetition_accumulates
    (success : CompiledPattern.compile schema expr = .ok compiled)
    (moment : Moment compiled limit patience now calls heard engine)
    (live : engine.states.get? ticket = some state)
    (atNode : compiled.nodes[state.node]? = some (.repetition child least most innerSlots)) :
    (∃ running collected,
      state.progress = .repetition running (heard ticket).length collected ∧
        (∀ greatest ∈ most, (heard ticket).length < greatest) ∧
          Row.Accumulates innerSlots state.bindings (heard ticket) collected) ∧
      (∀ operand held, engine.states.get? operand = some held → held.parent = some ticket →
        held.node = child ∧ (∀ slot ∈ innerSlots, Row.get held.bindings slot = .null) ∧
          ∀ slot, slot ∉ innerSlots →
            Row.get held.bindings slot = Row.get state.bindings slot) ∧
        ∀ task rest, engine.agenda = task :: rest →
          match task.heardBy ticket with
          | none => (engine.perform task).2.filter (Task.isMatchOf ticket) = []
          | some found =>
              ∃ total, Row.Accumulates innerSlots state.bindings (heard ticket ++ [found]) total ∧
                (engine.perform task).2.filter (Task.isMatchOf ticket) =
                  if least ≤ (heard ticket).length + 1 then
                    [.report state.parent ticket
                      (.matched total (most = some ((heard ticket).length + 1)))]
                  else [] := by
  have table := CompiledPattern.sound_of_compile success
  obtain ⟨_, _, due⟩ := moment.due table (RowLaw.outside compiled) fun _ _ => trivial
  have counted := (moment.tally success).counted live atNode
  refine ⟨counted, fun operand held => get_of_operand due live atNode, ?_⟩
  intro task rest isAgenda
  obtain ⟨running, collected, shape, fewer, accumulates⟩ := counted
  cases roundTurn table due isAgenda live atNode shape with
  | waits unheard isSilent _ =>
      rw [unheard]
      exact isSilent
  | @collects row isHeard answers _ =>
      rw [isHeard]
      refine ⟨_, accumulates_collect success due live atNode shape accumulates row, ?_⟩
      -- As many rounds as a repetition allows are enough.
      have enough : most = some ((heard ticket).length + 1) →
          least ≤ (heard ticket).length + 1 := fun isMost =>
        (CompiledPattern.bounds_of_compile success atNode).2 _ isMost
      rw [answers]
      exact if_congr (or_iff_right_of_imp enough) rfl rfl

/-- A pattern that matches with the second and the third event of a type, compiled. -/
def twoOrThreeTicks : CompiledPattern :=
  ⟨[.repetition 1 2 (some 3) [0], .filter "Tick" (some 0) none], [⟨"t", "Tick", 0, [0]⟩]⟩

/-- When it has heard of one event it has counted one, and holds the sequence of that event. -/
theorem Moment.repetition_accumulates_twoOrThreeTicks :
    CompiledPattern.compile tickSchema (.repetition (.filter ⟨some "t", "Tick", none⟩) 2 (some 3)) =
        .ok twoOrThreeTicks ∧
      ∃ heard engine state,
        Moment twoOrThreeTicks 10 10 0 [.event tick] heard engine ∧
          heard ⟨0, 0⟩ = [[.event tick]] ∧ engine.states.get? ⟨0, 0⟩ = some state ∧
            ∃ running collected, state.progress = .repetition running 1 collected ∧
              Row.Accumulates [0] state.bindings [[.event tick]] collected := by
  have compiles : CompiledPattern.compile tickSchema
      (.repetition (.filter ⟨some "t", "Tick", none⟩) 2 (some 3)) = .ok twoOrThreeTicks := rfl
  have begins : Moment twoOrThreeTicks 10 10 0 [] _ _ := .opened
  have shown := (begins.step.step.call (.event tick) rfl).step.step
  have live : (((Engine.opened twoOrThreeTicks 10 10 0).step.step.begun
      (.event tick)).step.step).states.get? ⟨0, 0⟩ =
        some ⟨0, none, 0, [.null], .repetition none 1 [.array [.event tick]]⟩ := by cbv
  obtain ⟨⟨running, collected, shape, _, accumulates⟩, _⟩ :=
    Moment.repetition_accumulates compiles shown live rfl
  exact ⟨compiles, _, _, _, shown, by cbv, live, running, collected, shape, accumulates⟩

end Moments

end Engine

end EventQuery
