import EventQuery.Proofs.Binding.Yields

namespace EventQuery

/-!
# Calls and their signatures

A call of a declared method or function has as many arguments as its signature has parameters, and
a written argument is of a type that its parameter accepts.  The wildcard is only known to stand
where an event or a collection of events is expected: what it stands for is not compared with the
parameter, so that it may be an event of another type or a sequence of events.
-/

namespace Node

mutual

/-- The calls of declared methods and functions in an expression, with their arguments. -/
def calls : Node → List (MethodSignature × List Node)
  | .literal _ => []
  | .slot _ _ => []
  | .row _ => []
  | .access _ _ _ => []
  | .read receiver _ _ _ => calls receiver
  | .item receiver _ _ => calls receiver
  | .builtin receiver _ arguments _ => calls receiver ++ callsOfAll arguments
  | .method receiver callee arguments _ =>
      (callee.signature, arguments) :: (calls receiver ++ callsOfAll arguments)
  | .function callee arguments _ => (callee.signature, arguments) :: callsOfAll arguments
  | .binary _ left right _ => calls left ++ calls right
  | .not operand => calls operand
  | .neg operand _ => calls operand

/-- The calls of declared methods and functions in several expressions. -/
def callsOfAll : List Node → List (MethodSignature × List Node)
  | [] => []
  | node :: rest => calls node ++ callsOfAll rest

end

/-- A call in several expressions is a call in one of them. -/
theorem mem_callsOfAll
    {nodes : List Node}
    {call : MethodSignature × List Node} :
    call ∈ callsOfAll nodes ↔ ∃ node ∈ nodes, call ∈ node.calls := by
  induction nodes with
  | nil => simp [callsOfAll]
  | cons node rest inductionHypothesis => simp [callsOfAll, inductionHypothesis]

end Node

namespace MethodSignature

/-- Whether there is one argument for each parameter, of a type that the parameter accepts. -/
def Takes (signature : MethodSignature) (arguments : List Node) : Prop :=
  List.Forall₂ (fun parameter argument => parameter.accepts argument.type = true)
    signature.parameters arguments

end MethodSignature

namespace Scope

variable {scope : Scope}

namespace Passes

variable {expressions : List Expr} {parameters : List ValueType} {nodes : List Node}

theorem length_eq
    (passes : scope.Passes expressions parameters nodes) :
    nodes.length = parameters.length := by
  induction passes with
  | nil => rfl
  | given _ _ _ _ inductionHypothesis => exact congrArg (· + 1) inductionHypothesis
  | row _ _ inductionHypothesis => exact congrArg (· + 1) inductionHypothesis
  | event _ _ _ inductionHypothesis => exact congrArg (· + 1) inductionHypothesis

/-- Whether parameters accept what the wildcards among written arguments stand for. -/
def WildcardsFit (expressions : List Expr) (parameters : List ValueType) (nodes : List Node) :
    Prop :=
  ∀ (position : Nat) (parameter : ValueType) (node : Node),
    expressions[position]? = some .wildcard → parameters[position]? = some parameter →
      nodes[position]? = some node → parameter.accepts node.type = true

/-- All arguments are accepted when the later ones are and the first, if it is a wildcard, is. -/
theorem forall₂_cons_iff_wildcardsFit
    {expr : Expr}
    {parameter : ValueType}
    {node : Node}
    (rest :
      List.Forall₂ (fun parameter node => parameter.accepts node.type = true) parameters nodes ↔
        WildcardsFit expressions parameters nodes)
    (written : expr ≠ .wildcard → parameter.accepts node.type = true) :
    List.Forall₂ (fun parameter node => parameter.accepts node.type = true)
        (parameter :: parameters) (node :: nodes) ↔
      WildcardsFit (expr :: expressions) (parameter :: parameters) (node :: nodes) := by
  rw [List.forall₂_cons, rest]
  constructor
  · rintro ⟨accepted, later⟩ (_ | position) expected passed isWildcard isExpected isPassed
    · cases isExpected
      cases isPassed
      exact accepted
    · exact later position expected passed isWildcard isExpected isPassed
  · intro fit
    refine ⟨?_, fun position => fit (position + 1)⟩
    by_cases isWildcard : expr = .wildcard
    · exact fit 0 parameter node (congrArg some isWildcard) rfl rfl
    · exact written isWildcard

/-- The arguments are all accepted when those are that wildcards stand for. -/
theorem accepted_iff
    (passes : scope.Passes expressions parameters nodes) :
    List.Forall₂ (fun parameter node => parameter.accepts node.type = true) parameters nodes ↔
      WildcardsFit expressions parameters nodes := by
  induction passes with
  | nil => exact ⟨fun _ _ _ _ isWildcard => (nomatch isWildcard), fun _ => .nil⟩
  | given _ _ accepted _ inductionHypothesis =>
      exact forall₂_cons_iff_wildcardsFit inductionHypothesis fun _ => accepted
  | row _ _ inductionHypothesis =>
      exact forall₂_cons_iff_wildcardsFit inductionHypothesis fun written => absurd rfl written
  | event _ _ _ inductionHypothesis =>
      exact forall₂_cons_iff_wildcardsFit inductionHypothesis fun written => absurd rfl written

end Passes

/-- Every call in an expression passes the arguments of a written call to its parameters. -/
theorem Makes.passes
    {admitted : Value → Prop}
    {written : String → List Expr → Prop}
    {node : Node}
    (made : scope.Makes admitted written node) :
    ∀ call ∈ node.calls,
      ∃ expressions, written call.1.name expressions ∧
        scope.Passes expressions call.1.parameters call.2 := by
  induction made with
  | literal | stream | row | aggregate | streamProperty | slotProperty =>
      exact List.forall_mem_nil _
  | property _ _ _ _ receiver | entry _ _ receiver | unknownProperty _ _ receiver => exact receiver
  | item _ _ receiver | unknownItem _ _ receiver => exact receiver
  | not _ _ operand | neg _ _ operand => exact operand
  | binary _ _ _ first second => exact List.forall_mem_append.mpr ⟨first, second⟩
  | builtin _ _ _ receiver arguments =>
      refine List.forall_mem_append.mpr ⟨receiver, fun call member => ?_⟩
      obtain ⟨node, isArgument, member⟩ := Node.mem_callsOfAll.mp member
      exact arguments node isArgument call member
  | method _ _ _ _ isWritten passed _ receiver arguments =>
      refine List.forall_mem_cons.mpr
        ⟨⟨_, isWritten, passed⟩, List.forall_mem_append.mpr ⟨receiver, fun call member => ?_⟩⟩
      obtain ⟨node, isArgument, member⟩ := Node.mem_callsOfAll.mp member
      exact arguments node isArgument call member
  | function _ _ isWritten passed _ arguments =>
      refine List.forall_mem_cons.mpr ⟨⟨_, isWritten, passed⟩, fun call member => ?_⟩
      obtain ⟨node, isArgument, member⟩ := Node.mem_callsOfAll.mp member
      exact arguments node isArgument call member

/--
Every call of a declared method or function in a bound expression comes from a written call of the
same name.  It has one argument for each parameter of its signature.  A written expression is passed
as what it is bound to, which its parameter accepts; the wildcard is passed as the whole row where a
collection of events is expected, and as the event or the sequence of events of a stream where an
event is expected.  So the arguments have the types of the signature exactly when those do that
wildcards stand for, and always when no wildcard is written among them.
-/
theorem calls_follow_signatures
    {expr : Expr}
    {node : Node}
    (bound : scope.bind expr = .ok node)
    (signature : MethodSignature)
    (arguments : List Node)
    (member : (signature, arguments) ∈ node.calls) :
    ∃ written, (signature.name, written) ∈ expr.calls ∧
      scope.Passes written signature.parameters arguments ∧
      arguments.length = signature.parameters.length ∧
      (signature.Takes arguments ↔
        Passes.WildcardsFit written signature.parameters arguments) := by
  have made : scope.Makes (fun _ => True) (fun name written => (name, written) ∈ expr.calls) node :=
    makes_bind expr (fun _ _ => trivial) (fun _ isWritten => isWritten) bound
  obtain ⟨written, isWritten, passes⟩ := made.passes _ member
  exact ⟨written, isWritten, passes, passes.length_eq, passes.accepted_iff⟩

/-- A trade settles an order. -/
def settles : Method := ⟨"settles", [.event "Order"], .bool, fun _ _ _ => .ok (.bool true)⟩

/-- Trades, which settle orders. -/
def tradeShape : Shape := ⟨"Trade", true, [("price", ⟨.int, none⟩)], [settles]⟩

/-- Orders. -/
def orderShape : Shape := ⟨"Order", true, [("price", ⟨.int, none⟩)], []⟩

/-- A stream of trades, to which names without a stream belong, and one of orders. -/
def settlementScope : Scope :=
  ⟨(Schema.empty.addShape tradeShape).addShape orderShape,
    [⟨"t", "Trade", 0, false⟩, ⟨"o", "Order", 1, false⟩], some 0, []⟩

/-- The question whether the trade settles what an argument is. -/
def settlesWhat (argument : Expr) : Expr :=
  .chain [.property "t" none, .call "settles" [argument] none]

/-- The question bound with an argument. -/
def boundSettles (argument : Node) : Node :=
  .method (.slot 0 (.event "Trade"))
    ⟨⟨"Trade", "settles", [.event "Order"]⟩, settles.invoke⟩ [argument] .bool

theorem calls_follow_signatures_settlesOrder :
    settlementScope.bind (settlesWhat (.ident "o")) =
        .ok (boundSettles (.slot 1 (.event "Order"))) ∧
      MethodSignature.Takes ⟨"Trade", "settles", [.event "Order"]⟩ [.slot 1 (.event "Order")] := by
  have bound : settlementScope.bind (settlesWhat (.ident "o")) =
      .ok (boundSettles (.slot 1 (.event "Order"))) := rfl
  obtain ⟨written, isWritten, _, _, takes⟩ :=
    calls_follow_signatures bound ⟨"Trade", "settles", [.event "Order"]⟩
      [.slot 1 (.event "Order")] (List.mem_singleton_self _)
  refine ⟨bound, takes.mpr fun position parameter argument isWildcard _ _ => ?_⟩
  have isOrder : ("settles", written) = ("settles", [.ident "o"]) := List.mem_singleton.mp isWritten
  rw [(Prod.mk.inj isOrder).2] at isWildcard
  cases List.mem_singleton.mp (List.mem_of_getElem? isWildcard)

/-- The wildcard passes the trade itself where an order is expected. -/
theorem not_takes_settlesWildcard :
    settlementScope.bind (settlesWhat .wildcard) =
        .ok (boundSettles (.slot 0 (.event "Trade"))) ∧
      (⟨"Trade", "settles", [.event "Order"]⟩, [.slot 0 (.event "Trade")]) ∈
        (boundSettles (.slot 0 (.event "Trade"))).calls ∧
      ¬MethodSignature.Takes ⟨"Trade", "settles", [.event "Order"]⟩ [.slot 0 (.event "Trade")] := by
  refine ⟨rfl, List.mem_singleton_self _, fun takes => ?_⟩
  cases takes with
  | cons accepted _ => exact absurd accepted (by decide)

end Scope

end EventQuery
