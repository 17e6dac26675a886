import EventQuery.Proofs.Pattern.Starting

namespace EventQuery

namespace Engine

/-!
# Answers of states that begin

A created state starts to run: leaves wait, and operators start their operands.  The pattern under
`every` and the rounds of a repetition start over in the same way.
-/

section Begin

variable {compiled : CompiledPattern} {law : RowLaw compiled} {moment horizon : Nat}
  {engine : Engine} {starting : List Ticket} {ticket : Ticket}

/-- An operand of a node of the table stands in the table. -/
theorem exists_operand
    (table : compiled.Sound)
    {number operand : Nat}
    {node : PatternNode}
    (atNode : compiled.nodes[number]? = some node)
    (isOperand : operand ∈ node.children) :
    ∃ child, compiled.nodes[operand]? = some child := by
  have inRange := (table.operandRange ⟨node, atNode, isOperand⟩).2
  exact ⟨_, List.getElem?_eq_getElem inRange⟩

/-- A state starts to run. -/
theorem answers_activate
    (table : compiled.Sound)
    (coherent : engine.Coherent law moment horizon (ticket :: starting) none []) :
    Answers law moment horizon engine starting (engine.activate ticket) := by
  have outside := (List.nodup_cons.mp coherent.fresh.nodup).1
  cases live : engine.states.get? ticket with
  | none =>
      simp only [activate, live]
      exact answers_nothing (coherent.begin (by simp [live]))
  | some state =>
      have childless := coherent.fresh.childless ticket (by simp) live
      have starts := coherent.kept.starts_next live
      obtain ⟨node, atNode, fits⟩ := coherent.kept.fits live
      have atEngine : engine.nodeOf state = some node := by
        rw [nodeOf, coherent.kept.pattern, atNode]
      -- An operator that waits for nothing runs as soon as it begins.
      have runs : state.progress.wait = .nothing →
          engine.Coherent law moment horizon starting none [] := by
        intro idle
        refine coherent.begin fun found => ?_
        cases live.symm.trans found
        exact idle
      have opens : ∀ {child : Nat}, child ∈ node.opening → child ∈ node.children →
          ∃ operand, compiled.nodes[child]? = some operand ∧
            law.start (moment + 1) child state.bindings := by
        intro child opening member
        obtain ⟨operand, atOperand⟩ := exists_operand table atNode member
        exact ⟨operand, atOperand, law.start_opening atNode opening starts⟩
      rcases state with ⟨number, parent, created, bindings, progress⟩
      simp only at fits childless atNode starts opens runs
      cases fits with
      | filter =>
          simp only [activate, live, atEngine]
          have waiting := coherent.await live rfl
          exact ⟨.of_states_eq rfl, by simp [Task.started], waiting, by simp⟩
      | timer =>
          simp only [activate, live, atEngine]
          have waiting := coherent.scheduleTimer live rfl
          exact ⟨.of_states_eq rfl, by simp [Task.started], waiting, by simp⟩
      | every =>
          simp only [activate, live, atEngine]
          obtain ⟨child, atChild, mayStart⟩ := opens (.head _) (.head _)
          exact answers_startChild (runs rfl) live atNode outside ⟨child, atChild⟩ mayStart
            childless (fun _ => .every) (fun _ => rfl) (fun _ => .every)
      | sequence =>
          simp only [activate, live, atEngine]
          obtain ⟨child, atChild, mayStart⟩ := opens (.head _) (.head _)
          obtain ⟨_, noRights⟩ := List.append_eq_nil_iff.mp childless
          refine answers_startChild (runs rfl) live atNode outside ⟨child, atChild⟩ mayStart
            childless (fun _ => .sequence) (fun _ => ?_) (fun _ => .left)
          simp [Progress.withChild, Progress.children, noRights]
      | alternation =>
          simp only [activate, live, atEngine]
          exact answers_startOperands (runs rfl) live atNode outside
            (fun _ member => opens member member) childless (fun _ _ => .alternation) (fun _ => rfl)
            (fun tickets _ _ _ atOperand atTicket =>
              .alternation (List.mem_of_getElem? atTicket) (List.mem_of_getElem? atOperand))
      | conjunction =>
          simp only [activate, live, atEngine]
          refine answers_startOperands (runs rfl) live atNode outside
            (fun _ member => opens member member) childless ?_ ?_ ?_
          · intro tickets sameLength
            refine .conjunction (.inr ?_)
            rw [List.forall₂_iff_get]
            refine ⟨by simp [sameLength], ?_⟩
            intro place inOperands inTickets found isFound
            simp at isFound
          · intro tickets
            simp [Progress.withOperands, Progress.children, List.filterMap_map]
          · intro tickets place operand ticket atOperand atTicket
            have listed :
                (tickets.map fun ticket => (⟨some ticket, none⟩ : Conjunct))[place]? =
                  some ⟨some ticket, none⟩ := by
              simp [atTicket]
            exact .conjunction atOperand listed rfl
      | repetition rounds =>
          simp only [activate, live, atEngine]
          exact answers_startChild (runs rfl) live atNode outside
            (exists_operand table atNode (.head _)) (law.start_round atNode starts rounds) childless
            (fun _ => .repetition rounds) (fun _ => rfl)
            (fun _ => .repetition rounds (Nat.le_refl _))
      | negation =>
          simp only [activate, live, atEngine]
          obtain ⟨child, atChild, mayStart⟩ := opens (.head _) (.head _)
          have started := answers_startChild (runs rfl) live atNode outside ⟨child, atChild⟩
            mayStart childless (fun _ => .negation) (fun _ => rfl) (fun _ => .negation)
          refine ⟨started.evolves, started.fresh, ?_⟩
          refine started.ready_append [.absence ticket] (fun _ member => member) ?_
          intro task member
          cases List.mem_singleton.mp member
          refine ⟨.inl ⟨_, live⟩, fun found => ?_⟩
          cases live.symm.trans found
          exact ⟨_, atNode⟩
      | within held =>
          simp only [activate, live, atEngine]
          obtain ⟨child, atChild, mayStart⟩ := opens (.head _) (.head _)
          have waiting := coherent.scheduleBound live rfl
          have started := answers_startChild waiting live atNode outside ⟨child, atChild⟩ mayStart
            childless (fun _ => .within held) (fun _ => rfl) (fun _ => .within)
          exact started.of_evolves (.of_states_eq rfl)
      | guarded =>
          simp only [activate, live, atEngine]
          obtain ⟨child, atChild, mayStart⟩ := opens (.head _) (.head _)
          exact answers_startChild (runs rfl) live atNode outside ⟨child, atChild⟩ mayStart
            childless (fun _ => .guarded) (fun _ => rfl) (fun _ => .guarded)

/-- The pattern under `every` starts over. -/
theorem answers_rearm
    (table : compiled.Sound)
    (coherent : engine.Coherent law moment horizon starting none [])
    (outside : ticket ∉ starting) :
    Answers law moment horizon engine starting (engine.rearm ticket) := by
  cases live : engine.states.get? ticket with
  | none =>
      simp only [rearm, live]
      exact answers_nothing coherent
  | some state =>
      have starts := coherent.kept.starts_next live
      obtain ⟨node, atNode, fits⟩ := coherent.kept.fits live
      have atEngine : engine.nodeOf state = some node := by
        rw [nodeOf, coherent.kept.pattern, atNode]
      rcases state with ⟨number, parent, created, bindings, progress⟩
      simp only at fits atNode starts
      cases fits with
      | @every _ running =>
          simp only [rearm, live, atEngine]
          cases running with
          | some _ =>
              exact answers_nothing coherent
          | none =>
              exact answers_startChild coherent live atNode outside
                (exists_operand table atNode (.head _))
                (law.start_opening atNode (.head _) starts) rfl (fun _ => .every) (fun _ => rfl)
                (fun _ => .every)
      | _ =>
          simp only [rearm, live, atEngine]
          exact answers_nothing coherent

/-- The next round of a repetition starts. -/
theorem answers_iterate
    (table : compiled.Sound)
    (coherent : engine.Coherent law moment horizon starting none [])
    (outside : ticket ∉ starting) :
    Answers law moment horizon engine starting (engine.iterate ticket) := by
  cases live : engine.states.get? ticket with
  | none =>
      simp only [iterate, live]
      exact answers_nothing coherent
  | some state =>
      have starts := coherent.kept.starts_next live
      obtain ⟨node, atNode, fits⟩ := coherent.kept.fits live
      have atEngine : engine.nodeOf state = some node := by
        rw [nodeOf, coherent.kept.pattern, atNode]
      rcases state with ⟨number, parent, created, bindings, progress⟩
      simp only at fits atNode starts
      cases fits with
      | @repetition _ _ _ _ _ running _ rounds =>
          simp only [iterate, live, atEngine]
          cases running with
          | some _ =>
              exact answers_nothing coherent
          | none =>
              exact answers_startChild coherent live atNode outside
                (exists_operand table atNode (.head _)) (law.start_round atNode starts rounds) rfl
                (fun _ => .repetition rounds) (fun _ => rfl)
                (fun _ => .repetition rounds (Nat.le_refl _))
      | _ =>
          simp only [iterate, live, atEngine]
          exact answers_nothing coherent

end Begin

end Engine

end EventQuery
