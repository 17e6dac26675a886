import EventQuery.Proofs.Processor.Isolation
import EventQuery.Proofs.Statement.Silent

namespace EventQuery

/-!
# Isolation of groups

Rows of a stream that are in different groups have nothing to do with each other when there is no
window.  What is told of the rows of a group is told, too, when the events of other groups are left
out, wherever idle groups are dropped in the meantime.
-/

namespace Plan

/-- The group of an event of a stream, if it passes the condition. -/
def groupOfEvent? (plan : Plan) (event : Event) : Option GroupKey :=
  match plan.source with
  | .stream eventType _ =>
      if event.kind = eventType then
        match plan.select? [.event event] [] with
        | .ok group => group
        | .error _ => none
      else none
  | _ => none

/-- Whether an event falls into a group. -/
def fallsInto (plan : Plan) (group : GroupKey) (event : Event) : Bool :=
  (plan.groupOfEvent? event).any (· == group)

variable {plan : Plan} {eventType : String} {window : Option Nat} {group : GroupKey} {event : Event}

/-- An event falls into the group that is selected for its row. -/
theorem fallsInto_of_select?
    {occasion : Occasion}
    {key : GroupKey}
    (steady : plan.Steady)
    (source : plan.source = .stream eventType window)
    (kind : event.kind = eventType)
    (selected : plan.select? [.event event] occasion = .ok (some key)) :
    plan.fallsInto group event = (key == group) := by
  have same := steady.select? [.event event] [] occasion
  simp only [fallsInto, groupOfEvent?, source, kind, same, selected, if_true, Option.any_some]

/-- The rows of an event are in the group that it falls into. -/
theorem group_of_mem_rows
    (steady : plan.Steady)
    (source : plan.source = .stream eventType window)
    (inside : plan.fallsInto group event = true)
    (statement : Statement)
    (planned : statement.plan = plan)
    (occasion : Occasion)
    (row : Row)
    (isRow : row ∈ (statement.rowsOf event occasion).2.rows)
    (otherOccasion : Occasion)
    (key : GroupKey)
    (selected : plan.select? row otherOccasion = .ok (some key)) :
    (key == group) = true := by
  subst planned
  simp only [Statement.rowsOf, source] at isRow
  split at isRow
  next kind =>
      cases List.mem_singleton.mp isRow
      rw [← fallsInto_of_select? steady source kind selected]
      exact inside
  next => cases isRow

/-- The source of a plan is the stream of its statement. -/
theorem source_ofSpec
    {schema : Schema}
    {catalog : AggregateCatalog}
    {spec : StatementSpec}
    {name : Option String}
    (streamed : spec.source = .stream eventType name window)
    (outcome : ofSpec schema catalog spec = .ok plan) :
    plan.source = .stream eventType window := by
  obtain ⟨⟨source, scope⟩, isSource, outcome⟩ := bind_eq_ok_iff.mp outcome
  obtain ⟨_, _, outcome⟩ := bind_eq_ok_iff.mp outcome
  obtain ⟨_, _, outcome⟩ := bind_eq_ok_iff.mp outcome
  obtain ⟨_, _, outcome⟩ := bind_eq_ok_iff.mp outcome
  obtain ⟨_, _, outcome⟩ := bind_eq_ok_iff.mp outcome
  obtain ⟨_, _, outcome⟩ := bind_eq_ok_iff.mp outcome
  cases outcome
  have planned := bound_eq_ok_iff.mp isSource
  rw [streamed] at planned
  obtain ⟨_, _, planned⟩ := bind_eq_ok_iff.mp planned
  cases planned
  rfl

end Plan

namespace Processor

/-- Every group is different from some other one. -/
theorem exists_other (group : GroupKey) : ∃ other : GroupKey, (other == group) = false := by
  cases different : GroupKey.ungrouped == group with
  | false => exact ⟨.ungrouped, different⟩
  | true =>
      refine ⟨⟨[.null]⟩, ?_⟩
      rw [← BEq.congr_right different]
      decide

/-- Whether a call sends an event of a kind. -/
def Call.sends (isKind : Event → Bool) : Call → Bool
  | .send event => isKind event
  | _ => false

/-- Whether a call is kept when only events of a kind are. -/
def Call.keeps (isKind : Event → Bool) : Call → Bool
  | .send event => isKind event
  | _ => true

namespace Beside

variable {plan : Plan} {eventType : String} {group : GroupKey} {first second : Processor}
  {id number : StatementId} {rename : String → String} {event : Event}

/-- An event that does not fall into the group can be sent in one processor only. -/
theorem send_left
    (beside :
      Beside (AreTwins plan (fun key => (key == group) = true) id number) first id second number)
    (source : plan.source = .stream eventType none)
    (steady : plan.Steady)
    (unfailing : ∀ aggregate ∈ plan.aggregates, aggregate.handler.Unfailing)
    (outside : plan.fallsInto group event = false) :
    Beside (AreTwins plan (fun key => (key == group) = true) id number) (first.send event).1 id
      second number := by
  refine beside.runLeft (isLocal_areTwins _ _ _ _) (isTurn_send event first.turn)
    fun {statement held twin other} are => ?_
  obtain ⟨rfl, rfl, rfl, sourced, areTwins⟩ := are
  -- No event falls into all groups, so it is not a pattern that this statement reads.
  have noEngine : statement.engine = none :=
    sourced.resolve_left fun all => by
      obtain ⟨key, different⟩ := exists_other group
      cases different.symm.trans (all key)
  have same := (statement.moves_send held event [statement.id, first.turn]).same
  refine ⟨same.2, same.1, rfl, .inr (Statement.engine_send noEngine _ _ _),
    areTwins.send_of_hidden source noEngine unfailing event _ fun kind occasion key selected other
      inGroup => ?_⟩
  rw [Plan.fallsInto_of_select? steady source kind selected] at outside
  rw [BEq.congr_right inGroup]
  exact outside

/-- What is told of a group does not depend on whether events of other groups are kept. -/
theorem tellings_kept
    {isKept : Event → Bool}
    (beside :
      Beside (AreTwins plan (fun key => (key == group) = true) id id) first id second id)
    (source : plan.source = .stream eventType none)
    (relabels : plan.Relabels (fun report => report) id id)
    (unfailing : ∀ aggregate ∈ plan.aggregates, aggregate.handler.Unfailing)
    (kept : ∀ event, plan.fallsInto group event = true → isKept event = true)
    (calls : List Call) :
    second.tellings id (Call.sends (plan.fallsInto group)) (calls.filter (Call.keeps isKept)) =
      first.tellings id (Call.sends (plan.fallsInto group)) calls := by
  have isLocal := isLocal_areTwins plan (fun key => (key == group) = true) id id
  induction calls generalizing first second with
  | nil => rfl
  | cons call rest inductionHypothesis =>
      cases call with
      | create spec =>
          exact inductionHypothesis ((beside.create isLocal spec).swap.create isLocal spec).swap
      | destroy gone =>
          by_cases isOwn : id = gone
          · subst isOwn
            exact inductionHypothesis beside.destroy
          · exact inductionHypothesis
              ((beside.destroyOther isLocal isOwn).swap.destroyOther isLocal isOwn).swap
      | advanceTime now => exact inductionHypothesis (beside.advanceTime relabels now).2
      | send event =>
          cases inside : plan.fallsInto group event with
          | true =>
              obtain ⟨told, stillBeside⟩ := beside.send relabels event
                (Plan.group_of_mem_rows relabels.steady source inside)
              rw [relabel_own] at told
              have later := inductionHypothesis stillBeside
              have keeps : Call.keeps isKept (.send event) = true := kept event inside
              rw [List.filter_cons_of_pos keeps]
              simp only [tellings, Call.sends, inside, if_true]
              exact congrArg₂ List.cons told later
          | false =>
              have stillBeside := beside.send_left source relabels.steady unfailing inside
              cases keeps : Call.keeps isKept (.send event) with
              | true =>
                  have both := (stillBeside.swap.send_left source relabels.steady unfailing
                    inside).swap
                  have later := inductionHypothesis both
                  rw [List.filter_cons_of_pos keeps]
                  simp only [tellings, Call.sends, inside]
                  exact later
              | false =>
                  have later := inductionHypothesis stillBeside
                  rw [List.filter_cons_of_neg (by rw [keeps]; exact Bool.false_ne_true)]
                  simp only [tellings, Call.sends, inside]
                  exact later

end Beside

/--
Groups are isolated.  When a statement over a stream without a window is steady and all its states
can be created, the same is told of each event of a group in a run in which any events of other
groups are left out, and in which the time moves on as before.
-/
theorem group_isolated
    (schema : Schema)
    (catalog : AggregateCatalog)
    (settings : Settings)
    (patience : Nat)
    (before calls : List Call)
    {spec : StatementSpec}
    {eventType : String}
    {name : Option String}
    {plan : Plan}
    {id : StatementId}
    {isKept : Event → Bool}
    (group : GroupKey)
    (streamed : spec.source = .stream eventType name none)
    (planned : Plan.ofSpec schema catalog spec = .ok plan)
    (steady : plan.Steady)
    (unfailing : ∀ aggregate ∈ plan.aggregates, aggregate.handler.Unfailing)
    (kept : ∀ event, plan.fallsInto group event = true → isKept event = true)
    (created : (((new schema catalog settings patience).performAll before).create spec).2 = .ok id) :
    let processor := (((new schema catalog settings patience).performAll before).create spec).1
    processor.tellings id (Call.sends (plan.fallsInto group)) (calls.filter (Call.keeps isKept)) =
      processor.tellings id (Call.sends (plan.fallsInto group)) calls := by
  have agrees := agrees_sceneAfter schema catalog settings patience before
  obtain ⟨sameSchema, sameCatalog⟩ :=
    supply_performAll (new schema catalog settings patience) before
  obtain ⟨_, rfl⟩ := planned_of_create created
  have source := Plan.source_ofSpec streamed planned
  have relabels : ∀ number, plan.Relabels (fun report => report) number number :=
    fun number => ⟨steady, fun aggregate _ => aggregate.handler.relabels_self number⟩
  have plannedThere : Plan.ofSpec ((new schema catalog settings patience).performAll before).schema
      ((new schema catalog settings patience).performAll before).catalog spec = .ok plan := by
    rw [sameSchema, sameCatalog]
    exact planned
  obtain ⟨_, _, beside⟩ | ⟨error, failed, _⟩ :=
    Beside.of_create agrees agrees rfl plannedThere (relabels _)
      (.inr fun pattern => by rw [source]; nofun)
  · exact beside.tellings_kept source (relabels _) unfailing kept calls
  · cases failed.symm.trans created

/-- Ticks at another place, and the end of its group, leave the counts of a place alone. -/
theorem group_isolated_countByPlace :
    let settings : Settings :=
      { Settings.standard with reclaimGroupAfter := some 5, reclaimFrequency := 0 }
    let processor := ((new tickSchema .standard settings 1).create (countByPlace none)).1
    let here : GroupKey := ⟨[.str "here"]⟩
    let calls : List Call :=
      [.send (tickAt 0 "here"), .send (tickAt 1 "there"), .advanceTime 3000000,
        .send (tickAt 2 "here"), .advanceTime 6000000, .send (tickAt 3 "there"),
        .send (tickAt 4 "here")]
    ∃ plan, Plan.ofSpec tickSchema .standard (countByPlace none) = .ok plan ∧
      (processor.tellings 1 (Call.sends (plan.fallsInto here)) calls).map List.length = [1, 1, 1] ∧
      processor.tellings 1 (Call.sends (plan.fallsInto here))
          (calls.filter (Call.keeps (plan.fallsInto here))) =
        processor.tellings 1 (Call.sends (plan.fallsInto here)) calls := by
  intro settings processor here calls
  have created :
      ((new tickSchema .standard settings 1).create (countByPlace none)).2 = .ok 1 := by
    decide +kernel
  obtain ⟨⟨plan, planned⟩, _⟩ := planned_of_create created
  have counted :
      (match Plan.ofSpec tickSchema .standard (countByPlace none) with
        | .ok plan =>
            (processor.tellings 1 (Call.sends (plan.fallsInto here)) calls).map List.length ==
              [1, 1, 1]
        | .error _ => false) = true := by
    decide +kernel
  have planned : Plan.ofSpec tickSchema .standard (countByPlace none) = .ok plan := planned
  rw [planned] at counted
  refine ⟨plan, planned, eq_of_beq counted, ?_⟩
  refine group_isolated tickSchema .standard settings 1 [] calls here rfl planned
    (Plan.steady_ofSpec deterministic_tickSchema AggregateCatalog.deterministic_standard planned)
    (fun aggregate member => ?_) (fun _ => id) created
  obtain ⟨call, isHandler⟩ := Plan.handle_of_ofSpec planned aggregate member
  obtain ⟨state, creates, _⟩ := AggregateCatalog.creates_standard isHandler
  exact creates.unfailing

end Processor

end EventQuery
