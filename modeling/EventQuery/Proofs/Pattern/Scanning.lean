import EventQuery.Proofs.Pattern.Enclosing
import EventQuery.Proofs.Pattern.Pairing
import EventQuery.Proofs.Pattern.RowSlots

namespace EventQuery

/-!
# Scanning for several events

A scan keeps a list of watchers, each for the events that one filter accepts.  Every event visits the
watchers that are still undecided, in their order.  A watcher that is not negated is bound to the
first event that it accepts, and the scan matches when all of these are bound.  A negated watcher
ends the scan with the first event that it accepts.
-/

/-- A filter, or the negation of one, as an operand that is compiled. -/
structure Watcher where
  /-- The number of the operand. -/
  number : Nat
  isNegated : Bool
  eventType : String
  slot : Option Nat
  predicate : Option Node

namespace Watcher

/-- The number of the filter. -/
def leaf (watcher : Watcher) : Nat :=
  if watcher.isNegated then watcher.number + 1 else watcher.number

theorem number_le_leaf
    (watcher : Watcher) :
    watcher.number ≤ watcher.leaf := by
  unfold leaf
  split <;> omega

/-- The filter. -/
def filter (watcher : Watcher) : PatternNode :=
  .filter watcher.eventType watcher.slot watcher.predicate

/-- Whether the filter accepts an event where nothing is bound. -/
def accepts (watcher : Watcher) (blank : Row) (event : Event) : Bool :=
  watcher.eventType == event.kind && Node.holds watcher.predicate (blank ++ [.event event])

end Watcher

/-- A watcher with the event that it is bound to. -/
structure Watch where
  watcher : Watcher
  found : Option Event

namespace Watch

/-- Whether a match needs no further event for a watcher. -/
def isSatisfied (watch : Watch) : Bool := watch.watcher.isNegated || watch.found.isSome

/-- Bindings with the event that a watcher is bound to. -/
def bind (row : Row) (watch : Watch) : Row :=
  match watch.found with
  | none => row
  | some event => bindEvent row watch.watcher.slot event

/-- The bindings of several watchers. -/
def bindings (blank : Row) (watches : List Watch) : Row := watches.foldl bind blank

end Watch

/-- What comes of the watchers that an event visits. -/
inductive Verdict where
  | undecided (watches : List Watch)
  | matched (watches : List Watch)
  | vetoed

/-- Let an event visit watchers one after another, behind those that it has visited. -/
def visit (blank : Row) (event : Event) (visited : List Watch) : List Watch → Verdict
  | [] => .undecided visited
  | watch :: rest =>
      if watch.found.isSome || !watch.watcher.accepts blank event then
        visit blank event (visited ++ [watch]) rest
      else if watch.watcher.isNegated then .vetoed
      else
        let bound := { watch with found := some event }
        if (visited ++ bound :: rest).all Watch.isSatisfied then
          .matched (visited ++ bound :: rest)
        else visit blank event (visited ++ [bound]) rest

/-- The watchers of a scan until it has ended, and the matches that it still has to hand out. -/
structure Scan where
  watches : Option (List Watch)
  completed : List Row

/-- The scan after an event, which may complete a match and end it. -/
def Verdict.after (blank : Row) (completed : List Row) : Verdict → Scan
  | .undecided watches => ⟨some watches, completed⟩
  | .matched watches => ⟨none, completed ++ [Watch.bindings blank watches]⟩
  | .vetoed => ⟨none, completed⟩

namespace Scan

/-- A scan starts with nothing bound.  It matches at once when all watchers are negated. -/
def start (blank : Row) (watchers : List Watcher) : Scan :=
  if watchers.all Watcher.isNegated then ⟨none, [blank]⟩
  else ⟨some (watchers.map fun watcher => ⟨watcher, none⟩), []⟩

/-- A scan after an event. -/
def shown (blank : Row) (scan : Scan) (event : Event) : Scan :=
  match scan.watches with
  | none => scan
  | some watches => (visit blank event [] watches).after blank scan.completed

/-- Show an event to a scan: what is left of it, and the matches that it hands out. -/
def next (blank : Row) (scan : Scan) (event : Event) : Scan × List Row :=
  ({ scan.shown blank event with completed := [] }, (scan.shown blank event).completed)

end Scan

/-! ## The first events -/

section Found

variable {blank : Row} {seen events : List Event} {event : Event} {watch : Watch}
  {visited watches all : List Watch} {watchers : List Watcher}

/-- A watcher is bound to the first of some events that it accepts. -/
structure Watch.FoundIn (blank : Row) (seen : List Event) (watch : Watch) : Prop where
  positive :
    watch.watcher.isNegated = false → watch.found = seen.find? (watch.watcher.accepts blank)
  negated : watch.watcher.isNegated = true → watch.found = none

/-- An event that a watcher does not accept leaves it as it is, and so does a later one. -/
theorem Watch.FoundIn.skip
    (foundIn : watch.FoundIn blank seen)
    (skips : (watch.found.isSome || !watch.watcher.accepts blank event) = true) :
    watch.FoundIn blank (seen ++ [event]) := by
  refine ⟨fun positive => ?_, foundIn.negated⟩
  rw [List.find?_append, foundIn.positive positive]
  rw [foundIn.positive positive] at skips
  cases early : seen.find? (watch.watcher.accepts blank) with
  | some first => rfl
  | none =>
      rw [early] at skips
      have refuses : watch.watcher.accepts blank event = false := by simpa using skips
      simp [refuses]

/-- The first event that a watcher accepts is the one that it is bound to. -/
theorem Watch.FoundIn.bound
    (foundIn : watch.FoundIn blank seen)
    (accepts : (watch.found.isSome || !watch.watcher.accepts blank event) = false)
    (positive : watch.watcher.isNegated = false) :
    Watch.FoundIn blank (seen ++ [event]) { watch with found := some event } := by
  obtain ⟨unbound, isAccepted⟩ := Bool.or_eq_false_iff.mp accepts
  rw [foundIn.positive positive] at unbound
  have early : seen.find? (watch.watcher.accepts blank) = none := by simpa using unbound
  refine ⟨fun _ => ?_, fun negated => absurd (positive.symm.trans negated) Bool.false_ne_true⟩
  rw [List.find?_append, early]
  simp only [Bool.not_eq_false'] at isAccepted
  simp [isAccepted]

/-- A watcher that is satisfied keeps to the event that it is bound to. -/
theorem Watch.FoundIn.satisfied
    (foundIn : watch.FoundIn blank seen)
    (isSatisfied : watch.isSatisfied = true)
    (event : Event) :
    watch.FoundIn blank (seen ++ [event]) := by
  cases negated : watch.watcher.isNegated with
  | true =>
      exact ⟨fun positive => absurd (positive.symm.trans negated) Bool.false_ne_true,
        foundIn.negated⟩
  | false =>
      rw [Watch.isSatisfied, negated, Bool.false_or] at isSatisfied
      exact foundIn.skip (by rw [isSatisfied, Bool.true_or])

/-- What an event leaves of the watchers that it visits is bound to the first events. -/
theorem foundIn_of_visit
    (event : Event)
    (before : ∀ watch ∈ visited, watch.FoundIn blank (seen ++ [event]))
    (after : ∀ watch ∈ watches, watch.FoundIn blank seen) :
    match visit blank event visited watches with
    | .undecided later =>
        later.map Watch.watcher = (visited ++ watches).map Watch.watcher ∧
          ∀ watch ∈ later, watch.FoundIn blank (seen ++ [event])
    | .matched all =>
        all.map Watch.watcher = (visited ++ watches).map Watch.watcher ∧
          ∀ watch ∈ all, watch.isSatisfied = true ∧ watch.FoundIn blank (seen ++ [event])
    | .vetoed => True := by
  induction watches generalizing visited with
  | nil =>
      rw [visit, List.append_nil]
      exact ⟨rfl, before⟩
  | cons watch rest inductionHypothesis =>
      obtain ⟨here, later⟩ := List.forall_mem_cons.mp after
      have moved : ∀ found : Option Event,
          ((visited ++ [{ watch with found }]) ++ rest).map Watch.watcher =
            (visited ++ watch :: rest).map Watch.watcher := by simp
      rw [visit]
      by_cases skips : (watch.found.isSome || !watch.watcher.accepts blank event) = true
      · rw [if_pos skips]
        have goesOn := inductionHypothesis
          (List.forall_mem_append.mpr ⟨before, List.forall_mem_singleton.mpr (here.skip skips)⟩)
          later
        rwa [moved watch.found] at goesOn
      · rw [if_neg skips]
        by_cases negated : watch.watcher.isNegated = true
        · rw [if_pos negated]
          trivial
        · rw [if_neg negated]
          have isBound := here.bound (Bool.eq_false_iff.mpr skips) (Bool.eq_false_iff.mpr negated)
          simp only
          by_cases complete : (visited ++
              { watch with found := some event } :: rest).all Watch.isSatisfied = true
          · rw [if_pos complete]
            rw [List.all_eq_true] at complete
            refine ⟨by simp, fun other member => ⟨complete other member, ?_⟩⟩
            rcases List.mem_append.mp member with isVisited | isLater
            · exact before other isVisited
            · rcases List.mem_cons.mp isLater with rfl | inRest
              · exact isBound
              · exact (later other inRest).satisfied (complete other member) event
          · rw [if_neg complete]
            have goesOn := inductionHypothesis
              (List.forall_mem_append.mpr ⟨before, List.forall_mem_singleton.mpr isBound⟩) later
            rwa [moved (some event)] at goesOn

/-- Watchers with other slots leave a slot as it is. -/
private theorem get_foldl_bind_of_not_mem
    {slot : Nat}
    (outside : slot ∉ watches.filterMap fun watch => watch.watcher.slot)
    (row : Row) :
    Row.get (watches.foldl Watch.bind row) slot = Row.get row slot := by
  induction watches generalizing row with
  | nil => rfl
  | cons watch rest inductionHypothesis =>
      have notRest : slot ∉ rest.filterMap fun watch => watch.watcher.slot := by
        intro member
        refine outside ?_
        obtain ⟨other, inRest, isSlot⟩ := List.mem_filterMap.mp member
        exact List.mem_filterMap.mpr ⟨other, List.mem_cons_of_mem _ inRest, isSlot⟩
      have notHere : watch.watcher.slot ≠ some slot := fun isSlot =>
        outside (List.mem_filterMap.mpr ⟨watch, List.mem_cons_self, isSlot⟩)
      rw [List.foldl_cons, inductionHypothesis notRest, Watch.bind]
      cases watch.found with
      | none => rfl
      | some event =>
          cases isSlot : watch.watcher.slot with
          | none => rfl
          | some other =>
              exact Row.get_set_of_ne row (fun same => notHere (isSlot.trans (congrArg some same))) _

/-- Each watcher has its event at its own slot. -/
theorem get_foldl_bind
    {slot : Nat}
    {row : Row}
    (distinct : (watches.filterMap fun watch => watch.watcher.slot).Nodup)
    (member : watch ∈ watches)
    (isFound : watch.found = some event)
    (isSlot : watch.watcher.slot = some slot)
    (inRange : slot < row.length) :
    Row.get (watches.foldl Watch.bind row) slot = .event event := by
  induction watches generalizing row with
  | nil => cases member
  | cons first rest inductionHypothesis =>
      rw [List.foldl_cons]
      rcases List.mem_cons.mp member with rfl | inRest
      · simp only [List.filterMap_cons, isSlot, List.nodup_cons] at distinct
        rw [get_foldl_bind_of_not_mem distinct.1, Watch.bind, isFound, isSlot]
        simp [bindEvent, Row.get, inRange]
      · refine inductionHypothesis (distinct.sublist ?_) inRest ?_
        · exact (List.sublist_cons_self _ _).filterMap _
        · rw [Watch.bind]
          cases first.found with
          | none => exact inRange
          | some other => rwa [length_bindEvent]

/-- A row has, for each watcher that is not negated, the first of some events that it accepts. -/
def FindsFirst (blank : Row) (watchers : List Watcher) (events : List Event) (row : Row) : Prop :=
  ∀ watcher ∈ watchers, watcher.isNegated = false → ∀ slot ∈ watcher.slot,
    ∃ event, events.find? (watcher.accepts blank) = some event ∧ Row.get row slot = .event event

theorem FindsFirst.append
    {row : Row}
    (finds : FindsFirst blank watchers seen row)
    (later : List Event) :
    FindsFirst blank watchers (seen ++ later) row := by
  intro watcher member positive slot isSlot
  obtain ⟨event, isFirst, bound⟩ := finds watcher member positive slot isSlot
  exact ⟨event, by rw [List.find?_append, isFirst]; rfl, bound⟩

/-- What a match of satisfied watchers has at their slots. -/
theorem findsFirst_bindings
    (distinct : (watches.filterMap fun watch => watch.watcher.slot).Nodup)
    (inRange : ∀ watch ∈ watches, ∀ slot ∈ watch.watcher.slot, slot < blank.length)
    (found : ∀ watch ∈ watches, watch.isSatisfied = true ∧ watch.FoundIn blank seen) :
    FindsFirst blank (watches.map Watch.watcher) seen (Watch.bindings blank watches) := by
  intro watcher member positive slot isSlot
  obtain ⟨watch, isWatch, rfl⟩ := List.mem_map.mp member
  obtain ⟨isSatisfied, foundIn⟩ := found watch isWatch
  rw [Watch.isSatisfied, positive, Bool.false_or] at isSatisfied
  obtain ⟨event, isFound⟩ := Option.isSome_iff_exists.mp isSatisfied
  exact ⟨event, (foundIn.positive positive).symm.trans isFound,
    get_foldl_bind distinct isWatch isFound isSlot (inRange watch isWatch slot isSlot)⟩

/-- A scan that has seen some events is bound to the first ones, and so are its matches. -/
structure Scan.FoundIn
    (blank : Row)
    (watchers : List Watcher)
    (seen : List Event)
    (scan : Scan) : Prop where
  watches :
    ∀ watches ∈ scan.watches, watches.map Watch.watcher = watchers ∧
      ∀ watch ∈ watches, watch.FoundIn blank seen
  completed : ∀ row ∈ scan.completed, FindsFirst blank watchers seen row

theorem Scan.foundIn_start
    (blank : Row)
    (watchers : List Watcher) :
    (Scan.start blank watchers).FoundIn blank watchers [] := by
  rw [Scan.start]
  split
  next allNegated =>
      refine ⟨nofun, fun row _ watcher member positive => ?_⟩
      rw [List.all_eq_true] at allNegated
      exact absurd (positive.symm.trans (allNegated watcher member)) Bool.false_ne_true
  next =>
      refine ⟨fun watches isWatches => ?_, nofun⟩
      cases isWatches
      refine ⟨by simp [Function.comp_def], fun watch member => ?_⟩
      obtain ⟨watcher, _, rfl⟩ := List.mem_map.mp member
      exact ⟨fun _ => rfl, fun _ => rfl⟩

/-- An event leaves a scan bound to the first events. -/
theorem Scan.FoundIn.shown
    {scan : Scan}
    (distinct : (watchers.filterMap Watcher.slot).Nodup)
    (inRange : ∀ watcher ∈ watchers, ∀ slot ∈ watcher.slot, slot < blank.length)
    (foundIn : scan.FoundIn blank watchers seen)
    (event : Event) :
    (scan.shown blank event).FoundIn blank watchers (seen ++ [event]) := by
  have kept : ∀ row ∈ scan.completed, FindsFirst blank watchers (seen ++ [event]) row :=
    fun row member => (foundIn.completed row member).append [event]
  rw [Scan.shown]
  cases isWatches : scan.watches with
  | none => exact ⟨by rw [isWatches]; exact nofun, kept⟩
  | some watches =>
      obtain ⟨isWatchers, found⟩ := foundIn.watches watches isWatches
      have visits := foundIn_of_visit event (List.forall_mem_nil _) found
      rw [List.nil_append, isWatchers] at visits
      simp only
      cases isVerdict : visit blank event [] watches with
      | undecided later =>
          rw [isVerdict] at visits
          refine ⟨fun other isOther => ?_, kept⟩
          cases isOther
          exact visits
      | matched all =>
          rw [isVerdict] at visits
          obtain ⟨isAll, satisfied⟩ := visits
          refine ⟨nofun, List.forall_mem_append.mpr ⟨kept, List.forall_mem_singleton.mpr ?_⟩⟩
          have slots : all.filterMap (fun watch => watch.watcher.slot) =
              watchers.filterMap Watcher.slot := by
            rw [← isAll, List.filterMap_map]
            rfl
          rw [← isAll]
          refine findsFirst_bindings (slots ▸ distinct) (fun watch member => ?_) satisfied
          exact inRange watch.watcher (isAll ▸ List.mem_map_of_mem member)
      | vetoed => exact ⟨nofun, kept⟩

/-- Every match of a scan has the first events that its watchers accept. -/
theorem Scan.findsFirst_of_feed
    {scan : Scan}
    (distinct : (watchers.filterMap Watcher.slot).Nodup)
    (inRange : ∀ watcher ∈ watchers, ∀ slot ∈ watcher.slot, slot < blank.length)
    (foundIn : scan.FoundIn blank watchers seen)
    (events : List Event) :
    ∀ row ∈ (feed (Scan.next blank) scan events).2.flatten,
      FindsFirst blank watchers (seen ++ events) row := by
  induction events generalizing scan seen with
  | nil => exact nofun
  | cons event rest inductionHypothesis =>
      have shown := foundIn.shown distinct inRange event
      rw [feed, List.flatten_cons]
      have isSplit : seen ++ event :: rest = (seen ++ [event]) ++ rest := by simp
      rw [isSplit]
      exact List.forall_mem_append.mpr
        ⟨fun row member => (shown.completed row member).append rest,
          inductionHypothesis ⟨shown.watches, nofun⟩⟩

end Found

end EventQuery
