import QuantumScript.Program.Parser.Expr

/-!
# Programs without their places

`bare` puts one and the same region in the place of every region of a tree. Two trees have the same
bare tree when they differ in nothing but where they were read.
-/

namespace QuantumScript

/-- The region that stands for any region. -/
def Span.anywhere : Span := ⟨0, 0, 0, 0⟩

mutual

/-- An expression without its places. -/
def Expr.bare : Expr → Expr
  | .number value _ => .number value .anywhere
  | .text value _ => .text value .anywhere
  | .bool value _ => .bool value .anywhere
  | .null _ => .null .anywhere
  | .name name _ => .name name .anywhere
  | .binary op left right _ => .binary op left.bare right.bare .anywhere
  | .logical op left right _ => .logical op left.bare right.bare .anywhere
  | .unary op operand _ => .unary op operand.bare .anywhere
  | .assign name value _ => .assign name value.bare .anywhere
  | .call callee args _ => .call callee.bare (bareExprs args) .anywhere
  | .methodCall object method args _ => .methodCall object.bare method (bareExprs args) .anywhere
  | .member object name _ => .member object.bare name .anywhere
  | .array elements _ => .array (bareExprs elements) .anywhere
  | .index object index _ => .index object.bare index.bare .anywhere

/-- Expressions without their places. -/
def bareExprs : List Expr → List Expr
  | [] => []
  | e :: es => e.bare :: bareExprs es

end

mutual

/-- A statement without its places. -/
def Stmt.bare : Stmt → Stmt
  | .expr value => .expr value.bare
  | .block body _ => .block (bareStmts body) .anywhere
  | .cond condition yes none _ => .cond condition.bare yes.bare none .anywhere
  | .cond condition yes (some no) _ => .cond condition.bare yes.bare (some no.bare) .anywhere
  | .whileLoop condition body _ => .whileLoop condition.bare body.bare .anywhere
  | .forLoop binder items body _ => .forLoop binder items.bare body.bare .anywhere
  | .function name params body _ => .function name params (bareStmts body) .anywhere
  | .giveBack none _ => .giveBack none .anywhere
  | .giveBack (some value) _ => .giveBack (some value.bare) .anywhere
  | .importing library nickname _ => .importing library nickname .anywhere

/-- Statements without their places. -/
def bareStmts : List Stmt → List Stmt
  | [] => []
  | s :: ss => s.bare :: bareStmts ss

end

/-- An expression without its places stands anywhere. -/
theorem Expr.span_bare (e : Expr) : e.bare.span = .anywhere := by
  cases e <;> rfl

/-- A statement without its places stands anywhere. -/
theorem Stmt.span_bare (s : Stmt) : s.bare.span = .anywhere := by
  cases s with
  | expr e => exact e.span_bare
  | cond condition yes no span => cases no <;> rfl
  | giveBack value span => cases value <;> rfl
  | _ => rfl

/-- Joining expressions without their places gives the same, places aside. -/
theorem Joint.bare_join (joint : Joint) {l r left right : Expr} (hl : l.bare = left.bare)
    (hr : r.bare = right.bare) : (joint.join l r).bare = (joint.join left right).bare := by
  cases joint <;> simp only [Joint.join, Expr.bare, hl, hr]

/-- Calling an expression without its places gives the same, places aside. -/
theorem Expr.bare_called (e : Expr) (args : List Expr) (span : Span) :
    (e.called args span).bare = e.bare.called (bareExprs args) .anywhere := by
  cases e <;> rfl

/-- Statements lose their places one by one. -/
theorem bareStmts_eq_map (ss : List Stmt) : bareStmts ss = ss.map Stmt.bare := by
  induction ss with
  | nil => rfl
  | cons s ss ih => rw [bareStmts, ih, List.map_cons]

/-- A program without its places. -/
def Program.bare (program : Program) : Program := bareStmts program

end QuantumScript
