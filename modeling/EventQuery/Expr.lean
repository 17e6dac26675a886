import EventQuery.Value.Text

namespace EventQuery

/-!
# Expressions

An expression is a literal, the wildcard, a chain of dotted segments, or an operator over smaller
expressions.  A segment reads a property or calls a method, and may pick one element of the result.
-/

/-- The operators with two operands. -/
inductive BinaryOp where
  | add
  | sub
  | mul
  | div
  | eq
  | notEq
  | lt
  | le
  | gt
  | ge
  | and
  | or
  deriving DecidableEq, Repr

namespace BinaryOp

/-- Operators that compare their operands. -/
def isComparison : BinaryOp → Bool
  | eq | notEq | lt | le | gt | ge => true
  | _ => false

/-- Operators on truth values. -/
def isLogical : BinaryOp → Bool
  | and | or => true
  | _ => false

/-- The written operator. -/
def symbol : BinaryOp → String
  | add => "+"
  | sub => "-"
  | mul => "*"
  | div => "/"
  | eq => "="
  | notEq => "!="
  | lt => "<"
  | le => "<="
  | gt => ">"
  | ge => ">="
  | and => "and"
  | or => "or"

end BinaryOp

/-- One dotted part of a chain, over the expressions that its arguments are. -/
inductive Segment (Argument : Type) where
  | property (name : String) (index : Option Nat)
  | call (name : String) (arguments : List Argument) (index : Option Nat)
  deriving Repr

namespace Segment

variable {Argument : Type}

/-- The member that the segment names. -/
def name : Segment Argument → String
  | property name _ => name
  | call name _ _ => name

/-- The element that is picked from the result. -/
def index? : Segment Argument → Option Nat
  | property _ index => index
  | call _ _ index => index

/-- The arguments; a property has none. -/
def arguments : Segment Argument → List Argument
  | property _ _ => []
  | call _ arguments _ => arguments

/-- Whether the segment is a call, with or without arguments. -/
def isCall : Segment Argument → Bool
  | property _ _ => false
  | call _ _ _ => true

/-- The number of arguments. -/
def arity (segment : Segment Argument) : Nat := segment.arguments.length

/-- The segment with another element picked from its result. -/
def withIndex (segment : Segment Argument) (index : Option Nat) : Segment Argument :=
  match segment with
  | property name _ => property name index
  | call name arguments _ => call name arguments index

end Segment

/-- An expression as written. -/
inductive Expr where
  | literal (value : Value)
  | wildcard
  | chain (segments : List (Segment Expr))
  | binary (op : BinaryOp) (left : Expr) (right : Expr)
  | not (operand : Expr)
  | neg (operand : Expr)
  deriving Repr

namespace Expr

/-- A picked element is written in brackets behind its segment. -/
def indexText : Option Nat → String
  | none => ""
  | some index => "[" ++ toString index ++ "]"

mutual

/-- The written form of an expression.  Operators carry no parentheses. -/
def text : Expr → String
  | .literal value => value.text
  | .wildcard => "*"
  | .chain segments => String.intercalate "." (segmentTexts segments)
  | .binary op left right => text left ++ " " ++ op.symbol ++ " " ++ text right
  | .not operand => "not " ++ text operand
  | .neg operand => "-" ++ text operand

/-- The written form of one segment. -/
def segmentText : Segment Expr → String
  | .property name index => name ++ indexText index
  | .call name arguments index =>
      name ++ "(" ++ String.intercalate ", " (argumentTexts arguments) ++ ")" ++ indexText index

/-- The written forms of the segments of a chain. -/
def segmentTexts : List (Segment Expr) → List String
  | [] => []
  | segment :: rest => segmentText segment :: segmentTexts rest

/-- The written forms of the arguments of a call. -/
def argumentTexts : List Expr → List String
  | [] => []
  | argument :: rest => text argument :: argumentTexts rest

end

/-- The text under which the result of an aggregation call is known: the call without an index. -/
def aggregateText (call : Segment Expr) : String := segmentText (call.withIndex none)

mutual

/-- Whether two expressions are written alike, with literals compared as values. -/
def same : Expr → Expr → Bool
  | .literal left, .literal right => left.equals right
  | .wildcard, .wildcard => true
  | .chain left, .chain right => segmentsSame left right
  | .binary op left right, .binary otherOp otherLeft otherRight =>
      op == otherOp && same left otherLeft && same right otherRight
  | .not left, .not right => same left right
  | .neg left, .neg right => same left right
  | _, _ => false

/-- Whether two segments are written alike. -/
def segmentSame : Segment Expr → Segment Expr → Bool
  | .property name index, .property otherName otherIndex =>
      name == otherName && index == otherIndex
  | .call name arguments index, .call otherName otherArguments otherIndex =>
      name == otherName && argumentsSame arguments otherArguments && index == otherIndex
  | _, _ => false

/-- Whether two chains are written alike. -/
def segmentsSame : List (Segment Expr) → List (Segment Expr) → Bool
  | [], [] => true
  | left :: lefts, right :: rights => segmentSame left right && segmentsSame lefts rights
  | _, _ => false

/-- Whether two argument lists are written alike. -/
def argumentsSame : List Expr → List Expr → Bool
  | [], [] => true
  | left :: lefts, right :: rights => same left right && argumentsSame lefts rights
  | _, _ => false

end

/-- A chain of one property. -/
def ident (name : String) : Expr := chain [.property name none]

/-- A chain of properties. -/
def path (names : List String) : Expr := chain (names.map fun name => .property name none)

/-- A chain is extended by a segment; other expressions cannot be and stay as they are. -/
def extend (expr : Expr) (segment : Segment Expr) : Expr :=
  match expr with
  | chain segments => chain (segments ++ [segment])
  | other => other

/-- Read a property of the result of a chain. -/
def property (expr : Expr) (name : String) : Expr := expr.extend (.property name none)

/-- Call a method on the result of a chain. -/
def call (expr : Expr) (name : String) (arguments : List Expr) : Expr :=
  expr.extend (.call name arguments none)

/-- Pick an element of the result of a chain, in place of one picked before. -/
def pick (expr : Expr) (index : Nat) : Expr :=
  match expr with
  | chain segments =>
      match segments.getLast? with
      | some last => chain (segments.dropLast ++ [last.withIndex (some index)])
      | none => chain segments
  | other => other

end Expr

end EventQuery
