import EventQuery.Binding.Condition
import EventQuery.Pattern.Expr

namespace EventQuery

/-!
# Tags

Each tag of a pattern has a slot of the match, in the order of first mention.  The operators and
leaves of a pattern are numbered as they are written, an operator before its operands.  A tag is
known by the repetitions around its first filter: seen from outside one of them it holds a sequence
of events, one for each round.
-/

/-- A tag of a pattern. -/
structure Tag where
  name : String
  eventType : String
  /-- The slot of a match that holds the event or the sequence of events. -/
  slot : Nat
  /-- The numbers of the repetitions around the filter that declares the tag. -/
  repetitions : List Nat
  deriving DecidableEq, Repr

namespace Tag

/-- Whether a tag holds a sequence of events, seen from a place inside some repetitions. -/
def indexedFrom (tag : Tag) (enclosing : List Nat) : Bool :=
  tag.repetitions.any fun repetition => !enclosing.contains repetition

/-- Whether a tag holds a sequence of events, seen from outside every repetition. -/
def isIndexed (tag : Tag) : Bool := !tag.repetitions.isEmpty

/-- The stream that a tag is, seen from a place inside some repetitions. -/
def streamFrom (tag : Tag) (enclosing : List Nat) : Stream :=
  ⟨tag.name, tag.eventType, tag.slot, tag.indexedFrom enclosing⟩

/-- The stream that a tag of a finished match is. -/
def stream (tag : Tag) : Stream := ⟨tag.name, tag.eventType, tag.slot, tag.isIndexed⟩

/-- The tag of a name. -/
def find? (tags : List Tag) (name : String) : Option Tag := tags.find? fun tag => tag.name == name

/-- Declare a tag once more or for the first time.  A tag keeps the place of its first mention. -/
def declare (tags : List Tag) (name eventType : String) (enclosing : List Nat) :
    Except BindingError (List Tag) :=
  match find? tags name with
  | none => .ok (tags ++ [⟨name, eventType, tags.length, enclosing⟩])
  | some first =>
      if first.eventType = eventType then .ok tags
      else .error (.invalidPattern (.tagConflict name first.eventType eventType))

mutual

/--
The tags of a pattern after those already known, and the number behind the last of its operators and
leaves.  The number given is that of the pattern itself, and the enclosing repetitions are those
around it.
-/
def collect (schema : Schema) (number : Nat) (enclosing : List Nat) (known : List Tag) :
    PatternExpr → Except BindingError (List Tag × Nat)
  | .filter spec => do
      let _ ← schema.requireEventType spec.eventType
      match spec.tag with
      | none => return (known, number + 1)
      | some name =>
          let tags ← declare known name spec.eventType enclosing
          return (tags, number + 1)
  | .every child => collect schema (number + 1) enclosing known child
  | .sequence left right => do
      let (tags, next) ← collect schema (number + 1) enclosing known left
      collect schema next enclosing tags right
  | .alternation children => collectAll schema (number + 1) enclosing known children
  | .conjunction children => collectAll schema (number + 1) enclosing known children
  | .repetition child _ _ => collect schema (number + 1) (enclosing ++ [number]) known child
  | .negation child => collect schema (number + 1) enclosing known child
  | .within child _ => collect schema (number + 1) enclosing known child
  | .guarded child _ => collect schema (number + 1) enclosing known child
  | .timer _ => .ok (known, number + 1)

/-- The tags of several patterns, each numbered from where the one before it ends. -/
def collectAll (schema : Schema) (number : Nat) (enclosing : List Nat) (known : List Tag) :
    List PatternExpr → Except BindingError (List Tag × Nat)
  | [] => .ok (known, number)
  | child :: rest => do
      let (tags, next) ← collect schema number enclosing known child
      collectAll schema next enclosing tags rest

end

end Tag

end EventQuery
