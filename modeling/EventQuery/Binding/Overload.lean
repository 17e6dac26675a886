import EventQuery.ValueType

namespace EventQuery

/-!
# Choice among overloaded methods

Of several methods of one name a call takes the one with as many parameters as it has arguments,
all of which fit, and which is more specific than every other such method.  A tie is no choice.
-/

/-- What a call passes at one position, as far as the choice of a method goes. -/
inductive ArgumentShape where
  | typed (type : ValueType)
  /-- The wildcard, which passes an event or a whole row of events. -/
  | wildcard
  deriving DecidableEq, Repr

namespace ValueType

/-- Whether a parameter takes an event or a collection of events. -/
def acceptsEvent (parameter : ValueType) : Bool :=
  parameter.isEvent || (parameter.element?.map isEvent).getD false

end ValueType

namespace ArgumentShape

/-- Whether an argument may be passed to a parameter. -/
def fits (parameter : ValueType) : ArgumentShape → Bool
  | typed type => parameter.accepts type
  | wildcard => parameter.acceptsEvent

/-- The written form of an argument in messages. -/
def text : ArgumentShape → String
  | typed type => type.text
  | wildcard => "*"

end ArgumentShape

/-- The outcome of a choice; candidates are given by their positions. -/
inductive Selection where
  | unique (candidate : Nat)
  /-- No candidate has as many parameters as there are arguments. -/
  | noArity
  /-- No candidate accepts the arguments; the first one of the right length refuses this one. -/
  | mismatch (candidate : Nat) (argument : Nat)
  | ambiguous (candidates : List Nat)
  deriving DecidableEq, Repr

namespace Overload

/-- The parameter types of a candidate, with its position. -/
abbrev Candidate := List ValueType × Nat

/-- Whether every argument fits its parameter. -/
def applies (arguments : List ArgumentShape) (candidate : Candidate) : Bool :=
  (candidate.1.zip arguments).all fun (parameter, argument) => argument.fits parameter

/-- The position of the first argument that does not fit. -/
def firstMisfit (arguments : List ArgumentShape) (candidate : Candidate) : Nat :=
  ((candidate.1.zip arguments).findIdx? fun (parameter, argument) =>
    !argument.fits parameter).getD 0

/-- Whether one parameter list could be passed on to another one that differs from it. -/
def moreSpecific (first second : List ValueType) : Bool :=
  ((first.zip second).all fun (narrow, wide) => wide.accepts narrow) && first != second

/-- Whether a candidate is more specific than every other one. -/
def dominates (others : List Candidate) (candidate : Candidate) : Bool :=
  others.all fun other => candidate.2 == other.2 || moreSpecific candidate.1 other.1

/-- The choice among candidates of the right length. -/
def chooseOfArity (sameArity : List Candidate) (arguments : List ArgumentShape) : Selection :=
  match sameArity with
  | [] => .noArity
  | first :: _ =>
      let applicable := sameArity.filter (applies arguments)
      if applicable.isEmpty then .mismatch first.2 (firstMisfit arguments first)
      else
        match applicable.filter (dominates applicable) with
        | [] => .ambiguous (applicable.map Prod.snd)
        | [only] => .unique only.2
        | tied => .ambiguous (tied.map Prod.snd)

/-- The choice among candidates, given by their parameter types in order of declaration. -/
def select (candidates : List (List ValueType)) (arguments : List ArgumentShape) : Selection :=
  chooseOfArity (candidates.zipIdx.filter fun candidate => candidate.1.length == arguments.length)
    arguments

end Overload

end EventQuery
