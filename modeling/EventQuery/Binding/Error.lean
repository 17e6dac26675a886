import EventQuery.Pattern.Problem
import EventQuery.Text.Quoted
import EventQuery.ValueType

namespace EventQuery

/-!
# Binding errors

An expression or pattern that cannot be given a meaning over a schema is refused with one of these
errors.  Hints are the endings of messages that offer a known name in place of an unknown one.
-/

/-- Why an expression or pattern cannot be bound. -/
inductive BindingError where
  /-- A type has no member of this name and number of arguments. -/
  | noSuchMember (member : String) (arity : Nat) (owner : String) (hint : String)
  /-- Several methods of a name fit a call equally well. -/
  | ambiguousOverload (member : String) (arity : Nat) (owner : String) (candidates : List String)
  /-- A property is read from a sequence of events as if it were one event. -/
  | ambiguousIndexedProperty (stream : String) (property : String)
  /-- A property without a stream is declared by several streams. -/
  | ambiguousProperty (property : String) (streams : List String)
  | typeMismatch (context : String) (expected : String) (found : String)
  | unknownStream (name : String) (hint : String)
  | unknownEventType (name : String) (hint : String)
  | invalidPattern (problem : PatternProblem)
  deriving DecidableEq, Repr

namespace BindingError

/-- An expression of one type stands where another is expected. -/
def mismatch (context : String) (expected found : ValueType) : BindingError :=
  typeMismatch context expected.text found.text

/-- The wording of an error. -/
def message : BindingError → String
  | noSuchMember member arity owner hint =>
      "Failed to resolve '" ++ member ++
        "': no property, date-time or enumeration method, or method taking " ++ toString arity ++
        " parameter(s) named '" ++ member ++ "' in '" ++ owner ++ "'" ++ hint
  | ambiguousOverload member arity owner candidates =>
      "Ambiguous call to '" ++ member ++ "' in '" ++ owner ++ "' with " ++ toString arity ++
        " parameter(s): candidates " ++ Quoted.list candidates ++ " are equally specific"
  | ambiguousIndexedProperty stream property =>
      "Failed to resolve property '" ++ stream ++ "." ++ property ++ "' (property '" ++ stream ++
        "' is an indexed property and requires an index or enumeration method to access values)"
  | ambiguousProperty property streams =>
      "Property '" ++ property ++ "' is ambiguous: declared by streams " ++ Quoted.list streams
  | typeMismatch context expected found =>
      "Type mismatch in " ++ context ++ ": expected " ++ expected ++ ", found " ++ found
  | unknownStream name hint => "Unknown stream or namespace '" ++ name ++ "'" ++ hint
  | unknownEventType name hint => "Unknown event type '" ++ name ++ "'" ++ hint
  | invalidPattern problem => "Invalid pattern: " ++ problem.message

end BindingError

end EventQuery
