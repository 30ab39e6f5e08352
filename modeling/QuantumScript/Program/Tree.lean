import QuantumScript.Span

/-!
# Programs as trees

Expressions and statements, each with the region of the source it was read from. A program is a
list of statements.
-/

namespace QuantumScript

/-- Operators that need both operands. -/
inductive BinaryOp
  | add
  | sub
  | mul
  | div
  | rem
  | pow
  | equal
  | notEqual
  | less
  | lessEqual
  | greater
  | greaterEqual
deriving DecidableEq, Repr

/-- How a binary operator is written. -/
def BinaryOp.spelling : BinaryOp → String
  | add => "+"
  | sub => "-"
  | mul => "*"
  | div => "/"
  | rem => "%"
  | pow => "**"
  | equal => "=="
  | notEqual => "!="
  | less => "<"
  | lessEqual => "<="
  | greater => ">"
  | greaterEqual => ">="

/-- Operators that may leave the right operand alone. -/
inductive LogicalOp
  | and
  | or
deriving DecidableEq, Repr

/-- Operators with one operand. -/
inductive UnaryOp
  | neg
  | not
deriving DecidableEq, Repr

/-- Expressions. -/
inductive Expr
  | number (value : Float) (span : Span)
  | text (value : String) (span : Span)
  | bool (value : Bool) (span : Span)
  | null (span : Span)
  | name (name : String) (span : Span)
  | binary (op : BinaryOp) (left right : Expr) (span : Span)
  | logical (op : LogicalOp) (left right : Expr) (span : Span)
  | unary (op : UnaryOp) (operand : Expr) (span : Span)
  | assign (name : String) (value : Expr) (span : Span)
  | call (callee : Expr) (args : List Expr) (span : Span)
  | methodCall (object : Expr) (method : String) (args : List Expr) (span : Span)
  | member (object : Expr) (name : String) (span : Span)
  | array (elements : List Expr) (span : Span)
  | index (object index : Expr) (span : Span)

/-- The region of an expression. -/
def Expr.span : Expr → Span
  | number _ span | text _ span | bool _ span | null span | name _ span | binary _ _ _ span
  | logical _ _ _ span | unary _ _ span | assign _ _ span | call _ _ span | methodCall _ _ _ span
  | member _ _ span | array _ span | index _ _ span => span

/-- Statements. The region of every statement but an expression is its first token. -/
inductive Stmt
  | expr (value : Expr)
  | block (body : List Stmt) (span : Span)
  | cond (condition : Expr) (yes : Stmt) (no : Option Stmt) (span : Span)
  | whileLoop (condition : Expr) (body : Stmt) (span : Span)
  | forLoop (binder : String) (items : Expr) (body : Stmt) (span : Span)
  | function (name : String) (params : List String) (body : List Stmt) (span : Span)
  | giveBack (value : Option Expr) (span : Span)
  | importing (library : String) (nickname : Option String) (span : Span)

/-- The region of a statement. -/
def Stmt.span : Stmt → Span
  | expr value => value.span
  | block _ span | cond _ _ _ span | whileLoop _ _ span | forLoop _ _ _ span
  | function _ _ _ span | giveBack _ span | importing _ _ span => span

/-- A program: its statements in order. -/
abbrev Program := List Stmt

end QuantumScript
