import QuantumScript.Program.Tree
import QuantumScript.Token.Reading

/-!
# From tokens to expressions

Expressions are read by a ladder of operators: the loosest rung is tried first, and each rung reads
its operands on the next one. The rungs of `Rung` associate to the left; above them stand `**`,
which associates to the right, the unary operators, and the calls, members and indexes that follow
a primary expression. Line ends are skipped inside parentheses and brackets.
-/

namespace QuantumScript

/-- A rung of the ladder of operators that associate to the left. -/
inductive Rung
  | disjunction
  | conjunction
  | equality
  | comparison
  | sum
  | product
deriving DecidableEq, Repr

/-- An operator between two expressions of a rung. -/
inductive Joint
  | binary (op : BinaryOp)
  | logical (op : LogicalOp)
deriving DecidableEq, Repr

/-- Two expressions joined by an operator; the region runs from the first to the second. -/
def Joint.join (joint : Joint) (left right : Expr) : Expr :=
  let span := left.span.through right.span
  match joint with
  | binary op => .binary op left right span
  | logical op => .logical op left right span

namespace Rung

/-- The rungs from the loosest to the tightest. -/
def all : List Rung := [disjunction, conjunction, equality, comparison, sum, product]

/-- The operator of a rung that a token writes. -/
def joint? (rung : Rung) (kind : Token.Kind) : Option Joint :=
  match rung, kind with
  | disjunction, .keyword .or => some (.logical .or)
  | conjunction, .keyword .and => some (.logical .and)
  | equality, .symbol .equal => some (.binary .equal)
  | equality, .symbol .notEqual => some (.binary .notEqual)
  | comparison, .symbol .less => some (.binary .less)
  | comparison, .symbol .lessEqual => some (.binary .lessEqual)
  | comparison, .symbol .greater => some (.binary .greater)
  | comparison, .symbol .greaterEqual => some (.binary .greaterEqual)
  | sum, .symbol .plus => some (.binary .add)
  | sum, .symbol .minus => some (.binary .sub)
  | product, .symbol .star => some (.binary .mul)
  | product, .symbol .slash => some (.binary .div)
  | product, .symbol .percent => some (.binary .rem)
  | _, _ => none

end Rung

/-- The unary operator that a token writes. -/
def UnaryOp.ofKind? : Token.Kind → Option UnaryOp
  | .symbol .minus => some .neg
  | .keyword .not => some .not
  | _ => none

/-- An expression called with arguments: a call of a member is a method call. -/
def Expr.called (callee : Expr) (args : List Expr) (span : Span) : Expr :=
  match callee with
  | .member object method _ => .methodCall object method args span
  | callee => .call callee args span

namespace Parser

open Token Reading

mutual

/-- Reads an expression: an assignment to a name, or an expression of the loosest rung. -/
def expression (ts : List Token) : Reading Expr ts :=
  (chain Rung.all ts).andMaybe fun left rest _ => assignment left rest
termination_by (ts.length, 5 + Rung.all.length)

/-- Reads the value that may be assigned to an expression. -/
def assignment (left : Expr) (ts : List Token) : LooseReading Expr ts :=
  match ts with
  | [] => .nothing left []
  | t :: after =>
    if t.isSymbol .assign then
      match left with
      | .name target span =>
        .behind t <| (expression after).map fun value =>
          .assign target value (span.through value.span)
      | _ => .error ⟨.assignmentTarget, t :: after⟩
    else .nothing left (t :: after)
termination_by (ts.length, 0)

/-- Reads an expression of the first of some rungs. -/
def chain (rungs : List Rung) (ts : List Token) : Reading Expr ts :=
  match rungs with
  | [] => power ts
  | rung :: rungs =>
    (chain rungs ts).andMaybe fun left rest _ => chainRest rung rungs left rest
termination_by (ts.length, 4 + rungs.length)

/-- Reads what follows an operand of a rung: operators of the rung, each with a right operand. -/
def chainRest (rung : Rung) (rungs : List Rung) (left : Expr) (ts : List Token) :
    LooseReading Expr ts :=
  match ts with
  | [] => .nothing left []
  | t :: after =>
    match rung.joint? t.kind with
    | none => .nothing left (t :: after)
    | some joint =>
      .behind t <| (chain rungs after).andMaybe fun right rest _ =>
        chainRest rung rungs (joint.join left right) rest
termination_by (ts.length, 0)

/-- Reads a power, or an expression with unary operators. -/
def power (ts : List Token) : Reading Expr ts :=
  (unary ts).andMaybe fun base rest _ => exponent base rest
termination_by (ts.length, 3)

/-- Reads the exponent that may follow a base. -/
def exponent (base : Expr) (ts : List Token) : LooseReading Expr ts :=
  match ts with
  | [] => .nothing base []
  | t :: after =>
    if t.isSymbol .power then
      .behind t <| (power after).map fun right => (Joint.binary .pow).join base right
    else .nothing base (t :: after)
termination_by (ts.length, 0)

/-- Reads an expression with any number of unary operators before it. -/
def unary (ts : List Token) : Reading Expr ts :=
  match ts with
  | [] => .error ⟨.expression, []⟩
  | t :: after =>
    match UnaryOp.ofKind? t.kind with
    | some op =>
      .behind t <| (unary after).map fun operand =>
        .unary op operand (t.span.through operand.span)
    | none => (primary (t :: after)).andMaybe fun e rest _ => suffixes e rest
termination_by (ts.length, 2)

/-- Reads the calls, members and indexes that follow an expression. -/
def suffixes (e : Expr) (ts : List Token) : LooseReading Expr ts :=
  match ts with
  | [] => .nothing e []
  | t :: after =>
    match t.kind with
    | .symbol .openParen =>
      .behind t <| (items .closeParen .parenAfterArguments after).andMaybe
        fun (args, last) rest _ =>
          suffixes (e.called args (e.span.through last)) rest
    | .symbol .dot =>
      .behind t <| (takeName .memberName after).andMaybe fun (name, last) rest _ =>
        suffixes (.member e name (e.span.through last)) rest
    | .symbol .openBracket =>
      .behind t <| (enclosed .closeBracket .bracketAfterIndex after).andMaybe
        fun (position, last) rest _ =>
          suffixes (.index e position (e.span.through last)) rest
    | _ => .nothing e (t :: after)
termination_by (ts.length, 0)

/-- Reads an expression and a closing symbol, and gives it with the region of that symbol. -/
def enclosed (close : Symbol) (want : Expectation) (ts : List Token) :
    Reading (Expr × Span) ts :=
  pastNewlines ts fun rest _ =>
  (expression rest).andThen fun e rest _ =>
  pastNewlines rest fun rest _ =>
  (takeSymbol close want rest).map fun last => (e, last.span)
termination_by (ts.length, 6 + Rung.all.length)
decreasing_by simp only [Prod.lex_def]; omega

/-- Reads expressions divided by commas up to a closing symbol, and gives them with the region of
that symbol. -/
def items (close : Symbol) (want : Expectation) (ts : List Token) :
    Reading (List Expr × Span) ts :=
  if nextIs (·.isSymbol close) ts then
    pastNewlines ts fun rest _ => (takeSymbol close want rest).map fun last => ([], last.span)
  else someItems close want ts
termination_by (ts.length, 7 + Rung.all.length)

/-- Reads at least one expression and what follows up to a closing symbol. -/
def someItems (close : Symbol) (want : Expectation) (ts : List Token) :
    Reading (List Expr × Span) ts :=
  pastNewlines ts fun rest _ =>
  (expression rest).andThen fun item rest _ =>
  pastNewlines rest fun rest _ =>
  moreItems close want item rest
termination_by (ts.length, 6 + Rung.all.length)
decreasing_by all_goals (simp only [Prod.lex_def]; omega)

/-- Reads what follows an item: a comma and more items, or the closing symbol. -/
def moreItems (close : Symbol) (want : Expectation) (item : Expr) (ts : List Token) :
    Reading (List Expr × Span) ts :=
  match ts with
  | [] => .error ⟨.expected want, []⟩
  | t :: after =>
    if t.isSymbol .comma then
      .behind t <| (someItems close want after).map fun (others, last) => (item :: others, last)
    else if t.isSymbol close then .token ([item], t.span) t after
    else .error ⟨.expected want, t :: after⟩
termination_by (ts.length, 0)

/-- Reads a literal, a name, an expression in parentheses or an array. -/
def primary (ts : List Token) : Reading Expr ts :=
  match ts with
  | [] => .error ⟨.expression, []⟩
  | t :: after =>
    match t.kind with
    | .number value => .token (.number value t.span) t after
    | .text value => .token (.text value t.span) t after
    | .name name => .token (.name name t.span) t after
    | .keyword .yes => .token (.bool true t.span) t after
    | .keyword .no => .token (.bool false t.span) t after
    | .keyword .null => .token (.null t.span) t after
    | .symbol .openParen =>
      .behind t <| (enclosed .closeParen .parenAfterExpression after).map fun (e, _) => e
    | .symbol .openBracket =>
      .behind t <| (items .closeBracket .bracketAfterElements after).map fun (elements, last) =>
        .array elements (t.span.through last)
    | _ => .error ⟨.expression, t :: after⟩
termination_by (ts.length, 0)

end

end Parser

end QuantumScript
