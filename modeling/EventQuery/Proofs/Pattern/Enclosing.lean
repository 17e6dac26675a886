import EventQuery.Proofs.Pattern.Lineage

namespace EventQuery

/-!
# Repetitions around a node

A tag remembers the repetitions around the filter that declares it, which is the first one with the
tag.  Here the same list is read off the table of a compiled pattern, by going from the root to a
node: the repetitions in it are different, stand above the node and are repetitions of the table.
Whatever filter binds a tag later binds events of the type of its declaration, and a repetition
collects at the slots of the tags that remember it.
-/

namespace PatternExpr

/-- A filter with a tag stands among some parts, and no filter before it has the tag. -/
structure FirstFilter (parts : List PatternExpr) (index : Nat) (name : String) : Prop where
  named : ∃ spec, parts[index]? = some (.filter spec) ∧ spec.tag = some name
  noneBefore : ∀ spec, .filter spec ∈ parts.take index → spec.tag ≠ some name

namespace FirstFilter

variable {front behind : List PatternExpr} {index : Nat} {name : String}

/-- The first filter stays the first one with more parts behind. -/
theorem append_right
    (first : FirstFilter front index name)
    (behind : List PatternExpr) :
    FirstFilter (front ++ behind) index name := by
  obtain ⟨⟨spec, atIndex, named⟩, noneBefore⟩ := first
  have inFront := (List.getElem?_eq_some_iff.mp atIndex).1
  refine ⟨⟨spec, by rwa [List.getElem?_append_left inFront], named⟩, ?_⟩
  rwa [List.take_append_of_le_length (Nat.le_of_lt inFront)]

/-- The first filter stays the first one behind parts without the tag. -/
theorem append_left
    (first : FirstFilter behind index name)
    (without : ∀ spec, .filter spec ∈ front → spec.tag ≠ some name) :
    FirstFilter (front ++ behind) (front.length + index) name := by
  obtain ⟨⟨spec, atIndex, named⟩, noneBefore⟩ := first
  refine ⟨⟨spec, ?_, named⟩, fun other member => ?_⟩
  · rwa [List.getElem?_append_right (Nat.le_add_right _ _), Nat.add_sub_cancel_left]
  · rw [List.take_length_add_append, List.mem_append] at member
    exact member.elim (without other) (noneBefore other)

/-- Only one filter is the first one with a tag. -/
theorem unique
    {parts : List PatternExpr}
    {first second : Nat}
    (isFirst : FirstFilter parts first name)
    (isSecond : FirstFilter parts second name) :
    first = second := by
  have notBefore : ∀ {index other : Nat},
      FirstFilter parts index name → FirstFilter parts other name → ¬ index < other := by
    rintro index other ⟨⟨spec, atIndex, named⟩, _⟩ ⟨_, noneBefore⟩ before
    have inFront : (parts.take other)[index]? = some (.filter spec) := by
      rwa [List.getElem?_take_of_lt before]
    exact noneBefore spec (List.mem_of_getElem? inFront) named
  exact Nat.le_antisymm (Nat.le_of_not_lt (notBefore isSecond isFirst))
    (Nat.le_of_not_lt (notBefore isFirst isSecond))

end FirstFilter

end PatternExpr

namespace PatternNode

/-- The repetitions around the operands of a node, given its number and those around itself. -/
def enclosingOperands (number : Nat) (enclosing : List Nat) : PatternNode → List Nat
  | .repetition _ _ _ _ => enclosing ++ [number]
  | _ => enclosing

end PatternNode

namespace CompiledPattern

variable {compiled : CompiledPattern} {schema : Schema} {number : Nat} {enclosing : List Nat}

/-- The repetitions around a node, the outermost one first. -/
inductive Around (compiled : CompiledPattern) : Nat → List Nat → Prop where
  | root : Around compiled rootNumber []
  | operand {number operand : Nat} {node : PatternNode} {enclosing : List Nat} :
      Around compiled number enclosing → compiled.nodes[number]? = some node →
        operand ∈ node.children →
          Around compiled operand (node.enclosingOperands number enclosing)

/-- A node of the table that repeats its operand. -/
def IsRepetition (compiled : CompiledPattern) (number : Nat) : Prop :=
  ∃ child least most innerSlots,
    compiled.nodes[number]? = some (.repetition child least most innerSlots)

/-- What is around an operand is around its operator, or is the operator. -/
theorem mem_enclosingOperands
    {node : PatternNode}
    {repetition : Nat}
    (atNumber : compiled.nodes[number]? = some node)
    (member : repetition ∈ node.enclosingOperands number enclosing) :
    repetition ∈ enclosing ∨ (repetition = number ∧ compiled.IsRepetition number) := by
  cases node with
  | repetition child least most innerSlots =>
      rcases List.mem_append.mp member with outside | isHere
      · exact .inl outside
      · exact .inr ⟨List.mem_singleton.mp isHere, child, least, most, innerSlots, atNumber⟩
  | _ =>
      exact .inl member

theorem Around.isRepetition
    (around : compiled.Around number enclosing)
    {repetition : Nat}
    (member : repetition ∈ enclosing) :
    compiled.IsRepetition repetition := by
  induction around with
  | root =>
      cases member
  | operand _ atNumber _ inductionHypothesis =>
      rcases mem_enclosingOperands atNumber member with outside | ⟨isHere, repeats⟩
      · exact inductionHypothesis outside
      · exact isHere ▸ repeats

/-- A node stands below what is around it. -/
theorem Around.lt
    (table : compiled.Sound)
    (around : compiled.Around number enclosing)
    {repetition : Nat}
    (member : repetition ∈ enclosing) :
    repetition < number := by
  induction around with
  | root =>
      cases member
  | @operand number operand node _ _ atNumber isChild inductionHypothesis =>
      have behind := (table.operandRange ⟨node, atNumber, isChild⟩).1
      rcases mem_enclosingOperands atNumber member with outside | ⟨isHere, _⟩
      · exact Nat.lt_trans (inductionHypothesis outside) behind
      · exact isHere ▸ behind

/-- What is around a node is known from the outside in. -/
theorem Around.ascending
    (table : compiled.Sound)
    (around : compiled.Around number enclosing) :
    enclosing.Pairwise (· < ·) := by
  induction around with
  | root =>
      exact .nil
  | @operand number operand node enclosing outer atNumber _ inductionHypothesis =>
      cases node with
      | repetition child least most innerSlots =>
          refine List.pairwise_append.mpr ⟨inductionHypothesis, List.pairwise_singleton _ _, ?_⟩
          intro first inOuter last isLast
          exact List.mem_singleton.mp isLast ▸ outer.lt table inOuter
      | _ =>
          exact inductionHypothesis

theorem Around.nodup
    (table : compiled.Sound)
    (around : compiled.Around number enclosing) :
    enclosing.Nodup :=
  (around.ascending table).imp Nat.ne_of_lt

/-- What is around a node are the repetitions that it stands inside of. -/
theorem Around.mem_iff
    (table : compiled.Sound)
    (around : compiled.Around number enclosing)
    {repetition : Nat} :
    repetition ∈ enclosing ↔
      compiled.IsRepetition repetition ∧ compiled.Below repetition number ∧ repetition ≠ number := by
  induction around with
  | root =>
      constructor
      · exact fun member => absurd member List.not_mem_nil
      · rintro ⟨_, below, different⟩
        exact absurd (Nat.le_zero.mp (below.le table)) different
  | @operand number operand node enclosing outer atNumber isChild inductionHypothesis =>
      rw [inside_operand_iff table ⟨node, atNumber, isChild⟩]
      by_cases isHere : repetition = number
      · subst isHere
        have isRepetition : compiled.IsRepetition repetition ↔
            repetition ∈ node.enclosingOperands repetition enclosing := by
          constructor
          · rintro ⟨child, least, most, innerSlots, atSame⟩
            cases atNumber.symm.trans atSame
            exact List.mem_append_right _ (List.mem_singleton.mpr rfl)
          · intro member
            rcases mem_enclosingOperands atNumber member with outside | ⟨_, repeats⟩
            · exact outer.isRepetition outside
            · exact repeats
        rw [← isRepetition]
        exact ⟨fun repeats => ⟨repeats, .refl⟩, And.left⟩
      · have sameMember :
            repetition ∈ node.enclosingOperands number enclosing ↔ repetition ∈ enclosing := by
          cases node <;> simp [PatternNode.enclosingOperands, isHere]
        rw [sameMember, inductionHypothesis]
        simp only [ne_eq, isHere, not_false_eq_true, and_true]

/-- A listed pattern and its node agree on what is around the operands. -/
theorem Listed.enclosingOperands_eq
    {expr : PatternExpr}
    {node : PatternNode}
    (listed : Listed compiled number expr)
    (atNumber : compiled.nodes[number]? = some node) :
    node.enclosingOperands number enclosing = expr.enclosingOperands number enclosing := by
  cases listed.isOf atNumber <;> rfl

/-- The operands of a listed pattern stand inside its repetitions, and inside it if it is one. -/
theorem Listed.around_operand
    {expr : PatternExpr}
    {operand : Nat}
    (listed : Listed compiled number expr)
    (around : compiled.Around number enclosing)
    (isOperand : operand ∈ PatternExpr.numbersFrom (number + 1) expr.operands) :
    compiled.Around operand (expr.enclosingOperands number enclosing) := by
  obtain ⟨node, atNumber, numbers⟩ := listed.exists_node
  rw [← listed.enclosingOperands_eq atNumber]
  exact .operand around atNumber (numbers ▸ isOperand)

/-- A filter declares a tag: it binds events of its type, and the repetitions of the tag are those
around it. -/
def Declares (compiled : CompiledPattern) (number : Nat) (tag : Tag) : Prop :=
  (∃ predicate,
      compiled.nodes[number]? = some (.filter tag.eventType (some tag.slot) predicate)) ∧
    compiled.Around number tag.repetitions

section Walk

variable {known tags : List Tag}

/-- The tags known before stay known. -/
private theorem collectFrom_subset
    {expr : PatternExpr}
    (success : Tag.collectFrom schema number enclosing known expr = .ok tags) :
    known ⊆ tags := by
  refine Tag.collectFrom_keeps (fun tags => known ⊆ tags) ?_ success (List.Subset.refl _)
  intro name eventType around before after declares subset
  rcases Tag.declare_cases declares with ⟨_, rfl⟩ | ⟨_, _, _, rfl⟩
  · exact List.subset_append_of_subset_left _ subset
  · exact subset

private theorem collectAllFrom_subset
    {children : List PatternExpr}
    (success : Tag.collectAllFrom schema number enclosing known children = .ok tags) :
    known ⊆ tags :=
  Tag.collectAllFrom_keeps (fun tags => known ⊆ tags)
    (fun _ _ _ _ _ _ collects subset => List.Subset.trans subset (collectFrom_subset collects))
    success (List.Subset.refl _)

/-- A filter with a tag leaves a tag of its name and its event type declared. -/
private theorem exists_tag_of_declare
    {name eventType : String}
    (declares : Tag.declare known name eventType enclosing = .ok tags) :
    ∃ tag ∈ tags, tag.name = name ∧ tag.eventType = eventType := by
  rcases Tag.declare_cases declares with ⟨_, rfl⟩ | ⟨first, found, sameType, rfl⟩
  · exact ⟨_, List.mem_append_right _ (List.mem_singleton.mpr rfl), rfl, rfl⟩
  · obtain ⟨member, sameName⟩ := Tag.mem_of_find? found
    exact ⟨first, member, sameName, sameType⟩

private theorem exists_tag_of_collectAllFrom
    {children : List PatternExpr}
    {spec : FilterSpec}
    {name : String}
    (inChild :
      ∀ child ∈ children, ∀ {number : Nat} {known tags : List Tag},
        Tag.collectFrom schema number enclosing known child = .ok tags →
          .filter spec ∈ child.parts →
            ∃ tag ∈ tags, tag.name = name ∧ tag.eventType = spec.eventType)
    (success : Tag.collectAllFrom schema number enclosing known children = .ok tags)
    (isPart : .filter spec ∈ PatternExpr.partsOfAll children) :
    ∃ tag ∈ tags, tag.name = name ∧ tag.eventType = spec.eventType := by
  induction children generalizing number known with
  | nil => cases isPart
  | cons child rest inductionHypothesis =>
      rw [List.forall_mem_cons] at inChild
      rw [Tag.collectAllFrom] at success
      obtain ⟨middle, first, later⟩ := ok_of_bind success
      rw [PatternExpr.partsOfAll, List.mem_append] at isPart
      rcases isPart with inFirst | inRest
      · obtain ⟨tag, member, isTag⟩ := inChild.1 first inFirst
        exact ⟨tag, collectAllFrom_subset later member, isTag⟩
      · exact inductionHypothesis inChild.2 later inRest

/-- The tag of every filter in a pattern is declared, for events of the type of the filter. -/
theorem exists_tag_of_collectFrom
    {expr : PatternExpr}
    {spec : FilterSpec}
    {name : String}
    (success : Tag.collectFrom schema number enclosing known expr = .ok tags)
    (isPart : .filter spec ∈ expr.parts)
    (named : spec.tag = some name) :
    ∃ tag ∈ tags, tag.name = name ∧ tag.eventType = spec.eventType := by
  induction expr using PatternExpr.operandInduction generalizing number enclosing known tags with
  | step expr inductionHypothesis =>
      rw [PatternExpr.parts_eq] at isPart
      rcases List.mem_cons.mp isPart with rfl | inOperands
      · rcases Tag.collectFrom_filter success with ⟨noTag, _⟩ | ⟨other, hasOther, declares⟩
        · cases named.symm.trans noTag
        · cases named.symm.trans hasOther
          exact exists_tag_of_declare declares
      · have notFilter : ∀ other, expr ≠ .filter other := by
          rintro other rfl
          cases inOperands
        exact exists_tag_of_collectAllFrom
          (fun child member _ _ _ success isPart => inductionHypothesis child member success isPart)
          (Tag.collectFrom_operands success notFilter) inOperands

private theorem collectAllFrom_declares
    {children : List PatternExpr}
    (placed : Tag.Placed compiled.tags)
    (inChild :
      ∀ child ∈ children, ∀ {number : Nat} {known tags : List Tag},
        Listed compiled number child → compiled.Around number enclosing →
          Tag.collectFrom schema number enclosing known child = .ok tags → tags ⊆ compiled.tags →
            ∀ tag ∈ tags, tag ∈ known ∨ ∃ index, compiled.Declares (number + index) tag ∧
              PatternExpr.FirstFilter child.parts index tag.name)
    (listed : AllListed compiled number children)
    (around : ∀ operand ∈ PatternExpr.numbersFrom number children,
      compiled.Around operand enclosing)
    (success : Tag.collectAllFrom schema number enclosing known children = .ok tags)
    (final : tags ⊆ compiled.tags) :
    ∀ tag ∈ tags, tag ∈ known ∨ ∃ index, compiled.Declares (number + index) tag ∧
      PatternExpr.FirstFilter (PatternExpr.partsOfAll children) index tag.name := by
  induction children generalizing number known with
  | nil =>
      rw [Tag.collectAllFrom] at success
      cases success
      exact fun tag member => .inl member
  | cons child rest inductionHypothesis =>
      rw [List.forall_mem_cons] at inChild
      rw [Tag.collectAllFrom] at success
      rw [AllListed] at listed
      rw [PatternExpr.numbersFrom, List.forall_mem_cons] at around
      obtain ⟨middle, first, later⟩ := ok_of_bind success
      have middleFinal : middle ⊆ compiled.tags :=
        fun _ isMiddle => final (collectAllFrom_subset later isMiddle)
      intro tag member
      by_cases inMiddle : tag ∈ middle
      · rcases inChild.1 listed.1 around.1 first middleFinal tag inMiddle with
          old | ⟨index, declares, isFirst⟩
        · exact .inl old
        · exact .inr ⟨index, declares, isFirst.append_right _⟩
      · rcases inductionHypothesis inChild.2 listed.2 around.2 later tag member with
          isMiddle | ⟨index, declares, isFirst⟩
        · exact absurd isMiddle inMiddle
        · refine .inr ⟨child.parts.length + index, ?_, isFirst.append_left fun spec isPart named => ?_⟩
          · rwa [PatternExpr.length_parts, ← Nat.add_assoc]
          · obtain ⟨other, isOther, sameName, _⟩ := exists_tag_of_collectFrom first isPart named
            have found := placed.find?_name (middleFinal isOther)
            rw [sameName, placed.find?_name (final member)] at found
            exact inMiddle (Option.some.inj found ▸ isOther)

/-- Each tag of a pattern is declared by its first filter. -/
theorem Listed.exists_declares
    (placed : Tag.Placed compiled.tags)
    {expr : PatternExpr}
    (listed : Listed compiled number expr)
    (around : compiled.Around number enclosing)
    (success : Tag.collectFrom schema number enclosing known expr = .ok tags)
    (final : tags ⊆ compiled.tags) :
    ∀ tag ∈ tags, tag ∈ known ∨ ∃ index, compiled.Declares (number + index) tag ∧
      PatternExpr.FirstFilter expr.parts index tag.name := by
  induction expr using PatternExpr.operandInduction generalizing number enclosing known tags with
  | step expr inductionHypothesis =>
      by_cases isFilter : ∃ spec, expr = .filter spec
      · obtain ⟨spec, shape⟩ := isFilter
        subst shape
        rw [Listed] at listed
        obtain ⟨predicate, atNumber⟩ := listed
        rcases Tag.collectFrom_filter success with ⟨_, same⟩ | ⟨name, hasName, declares⟩
        · exact fun tag member => .inl (same ▸ member)
        · rcases Tag.declare_cases declares with ⟨_, rfl⟩ | ⟨_, _, _, rfl⟩
          · intro tag member
            rcases List.mem_append.mp member with old | isNew
            · exact .inl old
            · have found := placed.find?_name (final member)
              cases List.mem_singleton.mp isNew
              refine .inr ⟨0, ⟨⟨predicate, ?_⟩, around⟩, ⟨spec, rfl, hasName⟩, by simp⟩
              rw [Nat.add_zero, atNumber, hasName, Option.bind_some, found, Option.map_some]
          · exact fun tag member => .inl member
      · have notFilter : ∀ spec, expr ≠ .filter spec := fun spec shape => isFilter ⟨spec, shape⟩
        intro tag member
        rcases collectAllFrom_declares placed
            (fun child member _ _ _ listed around => inductionHypothesis child member listed around)
            listed.operands (fun _ numbered => listed.around_operand around numbered)
            (Tag.collectFrom_operands success notFilter) final tag member with
          old | ⟨index, declares, isFirst⟩
        · exact .inl old
        · have without : ∀ spec, .filter spec ∈ [expr] → spec.tag ≠ some tag.name :=
            fun spec isHere => absurd (List.mem_singleton.mp isHere).symm (notFilter spec)
          have isFirst := isFirst.append_left without
          rw [List.singleton_append, ← PatternExpr.parts_eq, List.length_singleton] at isFirst
          rw [Nat.add_assoc] at declares
          exact .inr ⟨1 + index, declares, isFirst⟩

end Walk

section Compile

variable {expr : PatternExpr}

/-- Each tag of a compiled pattern is declared by its first filter, inside its repetitions. -/
theorem exists_first_of_compile
    (success : compile schema expr = .ok compiled)
    {tag : Tag}
    (member : tag ∈ compiled.tags) :
    ∃ filter, compiled.Declares filter tag ∧
      PatternExpr.FirstFilter expr.parts filter tag.name := by
  have collects := collectFrom_of_compile success
  have placed := Tag.placed_of_collectFrom collects
  obtain ⟨filter, declares, isFirst⟩ := ((listed_of_compile success).1.exists_declares placed .root
    collects (fun _ isTag => isTag) tag member).resolve_left (by simp)
  rw [Nat.zero_add] at declares
  exact ⟨filter, declares, isFirst⟩

theorem exists_declares_of_compile
    (success : compile schema expr = .ok compiled)
    {tag : Tag}
    (member : tag ∈ compiled.tags) :
    ∃ filter, compiled.Declares filter tag := by
  obtain ⟨filter, declares, _⟩ := exists_first_of_compile success member
  exact ⟨filter, declares⟩

/-- Slots belong to one tag each. -/
theorem eq_of_slot_eq
    (success : compile schema expr = .ok compiled)
    {first second : Tag}
    (isFirst : first ∈ compiled.tags)
    (isSecond : second ∈ compiled.tags)
    (sameSlot : first.slot = second.slot) :
    first = second := by
  have placed := Tag.placed_of_collectFrom (collectFrom_of_compile success)
  obtain ⟨place, atPlace⟩ := List.getElem?_of_mem isFirst
  obtain ⟨other, atOther⟩ := List.getElem?_of_mem isSecond
  rw [placed.slotOfPlace atPlace, placed.slotOfPlace atOther] at sameSlot
  subst sameSlot
  exact Option.some.inj (atPlace.symm.trans atOther)

/-- A filter that binds the slot of a tag waits for events of the type of the tag. -/
theorem eventType_of_slot
    (success : compile schema expr = .ok compiled)
    {tag : Tag}
    (member : tag ∈ compiled.tags)
    {eventType : String}
    {predicate : Option Node}
    (atNumber : compiled.nodes[number]? = some (.filter eventType (some tag.slot) predicate)) :
    eventType = tag.eventType := by
  obtain ⟨listed, length⟩ := listed_of_compile success
  have collects := collectFrom_of_compile success
  have inParts : number < expr.parts.length := by
    rw [PatternExpr.length_parts, ← length]
    exact (List.getElem?_eq_some_iff.mp atNumber).1
  have partListed := listed.of_part (List.getElem?_eq_getElem inParts)
  have isPart := List.getElem_mem inParts
  rw [Nat.zero_add] at partListed
  generalize expr.parts[number] = part at partListed isPart
  cases partListed.isOf atNumber with
  | filter sameType hasSlot =>
      obtain ⟨found, isFound, isSlot⟩ := Option.map_eq_some_iff.mp hasSlot.symm
      obtain ⟨name, hasName, isNamed⟩ := Option.bind_eq_some_iff.mp isFound
      obtain ⟨declared, isTag, sameName, isType⟩ :=
        exists_tag_of_collectFrom collects isPart hasName
      have isDeclared := (Tag.placed_of_collectFrom collects).find?_name isTag
      rw [sameName, isNamed, Option.some.injEq] at isDeclared
      subst isDeclared
      rw [sameType, ← isType, eq_of_slot_eq success isTag member isSlot]

section InnerSlots

variable {child least slot : Nat} {most : Option Nat} {innerSlots : List Nat}

/-- A repetition collects at the slots of the tags that remember it. -/
theorem innerSlots_of_compile
    (success : compile schema expr = .ok compiled)
    (atNumber : compiled.nodes[number]? = some (.repetition child least most innerSlots)) :
    innerSlots = CompiledPattern.innerSlots compiled.tags number := by
  obtain ⟨listed, length⟩ := listed_of_compile success
  have inRange : number < 0 + expr.size := by
    have := (List.getElem?_eq_some_iff.mp atNumber).1
    omega
  obtain ⟨part, partListed, _⟩ := listed.exists_part (Nat.zero_le _) inRange
  cases partListed.isOf atNumber with
  | repetition isInner => exact isInner

/-- A repetition collects at slots in the order in which their tags are declared. -/
theorem ascending_innerSlots
    (success : compile schema expr = .ok compiled)
    (atNumber : compiled.nodes[number]? = some (.repetition child least most innerSlots)) :
    innerSlots.Pairwise (· < ·) := by
  have placed := Tag.placed_of_collectFrom (collectFrom_of_compile success)
  have ascending : (compiled.tags.map Tag.slot).Pairwise (· < ·) :=
    placed.map_slot ▸ List.pairwise_lt_range
  rw [innerSlots_of_compile success atNumber]
  exact ascending.sublist (List.filter_sublist.map Tag.slot)

/-- A slot at which a repetition collects belongs to a tag that remembers the repetition. -/
theorem exists_tag_of_innerSlots
    (success : compile schema expr = .ok compiled)
    (atNumber : compiled.nodes[number]? = some (.repetition child least most innerSlots))
    (isInner : slot ∈ innerSlots) :
    ∃ tag ∈ compiled.tags, tag.slot = slot ∧ number ∈ tag.repetitions := by
  rw [innerSlots_of_compile success atNumber, CompiledPattern.innerSlots] at isInner
  obtain ⟨tag, filtered, sameSlot⟩ := List.mem_map.mp isInner
  obtain ⟨member, collected⟩ := List.mem_filter.mp filtered
  exact ⟨tag, member, sameSlot, by simpa using collected⟩

/-- The repetitions that collect a tag write at its slot, and no others. -/
theorem slot_mem_innerSlots_iff
    (success : compile schema expr = .ok compiled)
    {tag : Tag}
    (member : tag ∈ compiled.tags)
    (atNumber : compiled.nodes[number]? = some (.repetition child least most innerSlots)) :
    tag.slot ∈ innerSlots ↔ number ∈ tag.repetitions := by
  constructor
  · intro isInner
    obtain ⟨other, isTag, sameSlot, collected⟩ := exists_tag_of_innerSlots success atNumber isInner
    exact eq_of_slot_eq success isTag member sameSlot ▸ collected
  · intro collected
    rw [innerSlots_of_compile success atNumber, CompiledPattern.innerSlots, List.mem_map]
    exact ⟨tag, List.mem_filter.mpr ⟨member, by simpa using collected⟩, rfl⟩

/-- A repetition collects at slots to which filters below it bind their events. -/
theorem exists_binds_of_innerSlots
    (success : compile schema expr = .ok compiled)
    (atNumber : compiled.nodes[number]? = some (.repetition child least most innerSlots))
    (isInner : slot ∈ innerSlots) :
    ∃ filter, compiled.Below number filter ∧ compiled.Binds filter slot := by
  obtain ⟨tag, member, rfl, collected⟩ := exists_tag_of_innerSlots success atNumber isInner
  obtain ⟨filter, ⟨predicate, atFilter⟩, around⟩ := exists_declares_of_compile success member
  have inside := (around.mem_iff (sound_of_compile success)).mp collected
  exact ⟨filter, inside.2.1, tag.eventType, predicate, atFilter⟩

end InnerSlots

end Compile

end CompiledPattern

end EventQuery
