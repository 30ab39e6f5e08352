import QuantumScript.Proofs.Program.Bare

/-!
# The shape of programs

A call of a member is a method call, the branches of a condition and the bodies of loops are
blocks, and `else` may also be followed by another condition. `WellShaped` says so of every part of
a tree.
-/

namespace QuantumScript

/-- Whether an expression is a member of another. -/
def Expr.isMember : Expr → Bool
  | .member _ _ _ => true
  | _ => false

/-- Whether a statement is a block. -/
def Stmt.isBlock : Stmt → Bool
  | .block _ _ => true
  | _ => false

/-- Whether a statement may follow `else`: a block or a condition. -/
def Stmt.isBranch : Stmt → Bool
  | .block _ _ | .cond _ _ _ _ => true
  | _ => false

mutual

/-- In no part of an expression is a member called. -/
def Expr.WellShaped : Expr → Prop
  | .number _ _ | .text _ _ | .bool _ _ | .null _ | .name _ _ => True
  | .binary _ left right _ | .logical _ left right _ => left.WellShaped ∧ right.WellShaped
  | .unary _ operand _ => operand.WellShaped
  | .assign _ value _ => value.WellShaped
  | .call callee args _ => callee.isMember = false ∧ callee.WellShaped ∧ AllWellShaped args
  | .methodCall object _ args _ => object.WellShaped ∧ AllWellShaped args
  | .member object _ _ => object.WellShaped
  | .array elements _ => AllWellShaped elements
  | .index object index _ => object.WellShaped ∧ index.WellShaped

/-- Each of some expressions is well shaped. -/
def AllWellShaped : List Expr → Prop
  | [] => True
  | e :: es => e.WellShaped ∧ AllWellShaped es

end

mutual

/-- In no part of a statement is a member called, and every branch and body has its shape. -/
def Stmt.WellShaped : Stmt → Prop
  | .expr value => value.WellShaped
  | .block body _ | .function _ _ body _ => Program.WellShaped body
  | .cond condition yes none _ => condition.WellShaped ∧ yes.isBlock ∧ yes.WellShaped
  | .cond condition yes (some no) _ =>
    condition.WellShaped ∧ yes.isBlock ∧ yes.WellShaped ∧ no.isBranch ∧ no.WellShaped
  | .whileLoop condition body _ => condition.WellShaped ∧ body.isBlock ∧ body.WellShaped
  | .forLoop _ items body _ => items.WellShaped ∧ body.isBlock ∧ body.WellShaped
  | .giveBack none _ => True
  | .giveBack (some value) _ => value.WellShaped
  | .importing _ _ _ => True

/-- Each statement of a program is well shaped. -/
def Program.WellShaped : Program → Prop
  | [] => True
  | s :: ss => s.WellShaped ∧ Program.WellShaped ss

end

end QuantumScript
