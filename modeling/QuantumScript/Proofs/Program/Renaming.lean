import QuantumScript.Program.Tree

/-!
# Renaming the variables of a program

A renaming gives every variable a new name: where a name is read or assigned, and where it is a
parameter or the variable of a loop. The names of functions, members, methods and imports stay. A
renaming covers a program if it keeps its variables apart and leaves the names of its functions as
they are (`Renaming.Covers`). To put one name in the place of another, `Renaming.single`, covers
every program that does not use the new name and declares no function of either name.
-/

namespace QuantumScript

/-! ## The names of a program -/

mutual

/-- The variables that an expression reads or assigns. -/
def Expr.variables : Expr → List String
  | .number _ _ | .text _ _ | .bool _ _ | .null _ => []
  | .name name _ => [name]
  | .binary _ left right _ => left.variables ++ right.variables
  | .logical _ left right _ => left.variables ++ right.variables
  | .unary _ operand _ => operand.variables
  | .assign name value _ => name :: value.variables
  | .call callee args _ => callee.variables ++ exprsVariables args
  | .methodCall object _ args _ => object.variables ++ exprsVariables args
  | .member object _ _ => object.variables
  | .array elements _ => exprsVariables elements
  | .index object index _ => object.variables ++ index.variables

/-- The variables that expressions read or assign. -/
def exprsVariables : List Expr → List String
  | [] => []
  | e :: es => e.variables ++ exprsVariables es

end

mutual

/-- The variables of a statement: those it reads or assigns, its parameters and loop variables. -/
def Stmt.variables : Stmt → List String
  | .expr value => value.variables
  | .block body _ => stmtsVariables body
  | .cond condition yes none _ => condition.variables ++ yes.variables
  | .cond condition yes (some no) _ => condition.variables ++ (yes.variables ++ no.variables)
  | .whileLoop condition body _ => condition.variables ++ body.variables
  | .forLoop binder items body _ => items.variables ++ (binder :: body.variables)
  | .function _ params body _ => params ++ stmtsVariables body
  | .giveBack none _ => []
  | .giveBack (some value) _ => value.variables
  | .importing _ _ _ => []

/-- The variables of statements. -/
def stmtsVariables : List Stmt → List String
  | [] => []
  | s :: ss => s.variables ++ stmtsVariables ss

end

mutual

/-- The functions that a statement declares, also inside others. -/
def Stmt.functions : Stmt → List String
  | .block body _ => stmtsFunctions body
  | .cond _ yes none _ => yes.functions
  | .cond _ yes (some no) _ => yes.functions ++ no.functions
  | .whileLoop _ body _ => body.functions
  | .forLoop _ _ body _ => body.functions
  | .function name _ body _ => name :: stmtsFunctions body
  | .expr _ | .giveBack _ _ | .importing _ _ _ => []

/-- The functions that statements declare. -/
def stmtsFunctions : List Stmt → List String
  | [] => []
  | s :: ss => s.functions ++ stmtsFunctions ss

end

/-- The variables of a program. -/
def Program.variables (program : Program) : List String := stmtsVariables program

/-- The functions that a program declares. -/
def Program.functions (program : Program) : List String := stmtsFunctions program

/-! ## Renamings -/

/-- A way to rename names, which keeps those it covers apart. -/
structure Renaming where
  /-- The new name. -/
  name : String → String
  /-- The names that it covers. -/
  covers : String → Prop
  /-- Different names that are covered get different names. -/
  apart : ∀ {a b : String}, covers a → covers b → name a = name b → a = b

namespace Renaming

/-- Puts the name `y` in the place of `x`; it covers all names but `y`. -/
def single (x y : String) : Renaming where
  name n := if n = x then y else n
  covers n := n ≠ y
  apart {a b} ha hb h := by
    split at h <;> split at h
    · rename_i hax hbx
      exact hax.trans hbx.symm
    · exact absurd h.symm hb
    · exact absurd h ha
    · exact h

/-- A renaming covers the names of some variables and leaves those of some functions. -/
structure Covers (ρ : Renaming) (names functions : List String) : Prop where
  /-- The names of the variables are covered. -/
  names : ∀ n ∈ names, ρ.covers n
  /-- The functions are covered and keep their names. -/
  functions : ∀ n ∈ functions, ρ.covers n ∧ ρ.name n = n

variable {ρ : Renaming} {names functions names' functions' : List String}

/-- Names are covered together if they are covered apart. -/
theorem covers_append :
    ρ.Covers (names ++ names') (functions ++ functions') ↔
      ρ.Covers names functions ∧ ρ.Covers names' functions' := by
  constructor
  · rintro ⟨hnames, hfunctions⟩
    obtain ⟨hv, hv'⟩ := List.forall_mem_append.1 hnames
    obtain ⟨hf, hf'⟩ := List.forall_mem_append.1 hfunctions
    exact ⟨⟨hv, hf⟩, ⟨hv', hf'⟩⟩
  · rintro ⟨⟨hv, hf⟩, ⟨hv', hf'⟩⟩
    exact ⟨List.forall_mem_append.2 ⟨hv, hv'⟩, List.forall_mem_append.2 ⟨hf, hf'⟩⟩

/-- A single new name covers what does not use it, if no function has either name. -/
theorem covers_single {x y : String} (hy : y ∉ names) (hyf : y ∉ functions)
    (hxf : x ∉ functions) : (single x y).Covers names functions where
  names n hn := by
    rintro rfl
    exact hy hn
  functions n hn := by
    refine ⟨?_, if_neg ?_⟩
    · rintro rfl
      exact hyf hn
    · rintro rfl
      exact hxf hn

end Renaming

mutual

/-- An expression with its variables renamed. -/
def Expr.renamed (ρ : Renaming) : Expr → Expr
  | .number value span => .number value span
  | .text value span => .text value span
  | .bool value span => .bool value span
  | .null span => .null span
  | .name name span => .name (ρ.name name) span
  | .binary op left right span => .binary op (left.renamed ρ) (right.renamed ρ) span
  | .logical op left right span => .logical op (left.renamed ρ) (right.renamed ρ) span
  | .unary op operand span => .unary op (operand.renamed ρ) span
  | .assign name value span => .assign (ρ.name name) (value.renamed ρ) span
  | .call callee args span => .call (callee.renamed ρ) (renamedExprs ρ args) span
  | .methodCall object method args span =>
    .methodCall (object.renamed ρ) method (renamedExprs ρ args) span
  | .member object name span => .member (object.renamed ρ) name span
  | .array elements span => .array (renamedExprs ρ elements) span
  | .index object index span => .index (object.renamed ρ) (index.renamed ρ) span

/-- Expressions with their variables renamed. -/
def renamedExprs (ρ : Renaming) : List Expr → List Expr
  | [] => []
  | e :: es => e.renamed ρ :: renamedExprs ρ es

end

mutual

/-- A statement with its variables renamed. -/
def Stmt.renamed (ρ : Renaming) : Stmt → Stmt
  | .expr value => .expr (value.renamed ρ)
  | .block body span => .block (renamedStmts ρ body) span
  | .cond condition yes none span => .cond (condition.renamed ρ) (yes.renamed ρ) none span
  | .cond condition yes (some no) span =>
    .cond (condition.renamed ρ) (yes.renamed ρ) (some (no.renamed ρ)) span
  | .whileLoop condition body span => .whileLoop (condition.renamed ρ) (body.renamed ρ) span
  | .forLoop binder items body span =>
    .forLoop (ρ.name binder) (items.renamed ρ) (body.renamed ρ) span
  | .function name params body span =>
    .function name (params.map ρ.name) (renamedStmts ρ body) span
  | .giveBack none span => .giveBack none span
  | .giveBack (some value) span => .giveBack (some (value.renamed ρ)) span
  | .importing library nickname span => .importing library nickname span

/-- Statements with their variables renamed. -/
def renamedStmts (ρ : Renaming) : List Stmt → List Stmt
  | [] => []
  | s :: ss => s.renamed ρ :: renamedStmts ρ ss

end

/-- A program with its variables renamed. -/
def Program.renamed (ρ : Renaming) (program : Program) : Program := renamedStmts ρ program

/-- Renaming moves no expression. -/
theorem Expr.span_renamed (ρ : Renaming) (e : Expr) : (e.renamed ρ).span = e.span := by
  cases e <;> rfl

/-- Renaming moves no statement. -/
theorem Stmt.span_renamed (ρ : Renaming) (s : Stmt) : (s.renamed ρ).span = s.span := by
  cases s with
  | expr e => exact e.span_renamed ρ
  | cond condition yes no span => cases no <;> rfl
  | giveBack value span => cases value <;> rfl
  | _ => rfl

end QuantumScript
