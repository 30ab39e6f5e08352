import QuantumScript.Program.Parser.Stmt
import QuantumScript.Proofs.Cursor.Reader

/-!
# Reading programs with a cursor

A program is read with a cursor as the grammar says, one routine for each kind of phrase. The
routines call each other and themselves without any measure: an operand may be an expression again,
and a statement holds blocks of statements. Lists are built up from the front in loops.
-/

namespace QuantumScript

namespace Cursor

/-! ## Lists -/

section Lists

variable {α : Type} (item : Cursor α)

/-- Reads an item of a list and the comma behind it, without which it is the last one. -/
def itemRound (items : List α) : Cursor (Round (List α)) := do
  skip Token.isNewline
  let a ← item
  skip Token.isNewline
  if ← accept (·.isSymbol .comma) then
    return .more (items ++ [a])
  else
    return .last (items ++ [a])

/-- Reads items divided by commas up to a closing symbol. -/
def list (close : Symbol) (want : Expectation) : Cursor (List α) := do
  skip Token.isNewline
  if ← check (·.isSymbol close) then
    let _ ← expectSymbol close want
    return []
  else
    let items ← loop (itemRound item) []
    let _ ← expectSymbol close want
    return items

end Lists

/-! ## Expressions

A routine that reads expressions inside others is given the routine that reads them. -/

section Expressions

variable (expression : Cursor Expr)

/-- Reads an expression and a closing symbol. -/
def enclosed (close : Symbol) (want : Expectation) : Cursor Expr := do
  skip Token.isNewline
  let e ← expression
  skip Token.isNewline
  let _ ← expectSymbol close want
  return e

/-- Reads a literal, a name, an expression in parentheses or an array. -/
def primary : Cursor Expr := do
  match ← peek with
  | none => stuck .expression
  | some t =>
    match t.kind with
    | .number value =>
      let _ ← advance
      return .number value t.span
    | .text value =>
      let _ ← advance
      return .text value t.span
    | .name name =>
      let _ ← advance
      return .name name t.span
    | .keyword .yes =>
      let _ ← advance
      return .bool true t.span
    | .keyword .no =>
      let _ ← advance
      return .bool false t.span
    | .keyword .null =>
      let _ ← advance
      return .null t.span
    | .symbol .openParen =>
      let _ ← advance
      enclosed expression .closeParen .parenAfterExpression
    | .symbol .openBracket =>
      let _ ← advance
      let (elements, last) ← withRegion (list expression .closeBracket .bracketAfterElements)
      return .array elements (t.span.through last)
    | _ => stuck .expression

/-- Reads a call, a member or an index that follows an expression. -/
def suffixRound (e : Expr) : Cursor (Round Expr) := do
  if ← accept (·.isSymbol .openParen) then
    let (args, last) ← withRegion (list expression .closeParen .parenAfterArguments)
    return .more (e.called args (e.span.through last))
  else if ← accept (·.isSymbol .dot) then
    let (name, last) ← withRegion (expectName .memberName)
    return .more (.member e name (e.span.through last))
  else if ← accept (·.isSymbol .openBracket) then
    let (position, last) ← withRegion (enclosed expression .closeBracket .bracketAfterIndex)
    return .more (.index e position (e.span.through last))
  else
    return .absent e

/-- Reads a primary expression with the calls, members and indexes that follow it. -/
def suffixed : Cursor Expr := do
  let e ← primary expression
  loop (suffixRound expression) e

/-- Reads an expression with any number of unary operators before it. -/
def unary : Cursor Expr :=
  watched .unary fun unary => do
    match (← peek).bind fun t => UnaryOp.ofKind? t.kind with
    | some op =>
      let span ← advance
      let operand ← unary
      return .unary op operand (span.through operand.span)
    | none => suffixed expression

/-- Reads a power, or an expression with unary operators. -/
def power : Cursor Expr :=
  watched .power fun power => do
    let base ← unary expression
    if ← accept (·.isSymbol .power) then
      let right ← power
      return (Joint.binary .pow).join base right
    else
      return base

/-- Reads an operator of a rung and its right operand. -/
def rungRound (rung : Rung) (operand : Cursor Expr) (left : Expr) : Cursor (Round Expr) := do
  match (← peek).bind fun t => rung.joint? t.kind with
  | some joint =>
    let _ ← advance
    let right ← operand
    return .more (joint.join left right)
  | none => return .absent left

/-- Reads an expression of the first of some rungs. -/
def chain : List Rung → Cursor Expr
  | [] => power expression
  | rung :: rungs => do
    let left ← chain rungs
    loop (rungRound rung (chain rungs)) left

/-- Reads an expression of the loosest rung and the value that may be assigned to it. -/
def assignment : Cursor Expr := do
  let left ← chain expression Rung.all
  match ← acceptRegion (·.isSymbol .assign) with
  | none => return left
  | some equals =>
    match left with
    | .name target span =>
      let value ← expression
      return .assign target value (span.through value.span)
    | _ => fail ⟨.invalidAssignmentTarget, some equals⟩

end Expressions

/-- Reads an expression. -/
def expression : Cursor Expr :=
  watched .expression assignment

/-! ## Statements -/

/-- Reads the parameters of a function up to the closing parenthesis. -/
def parameters : Cursor (List String) :=
  list (expectName .parameterName) .closeParen .parenAfterParameters

/-- Reads the condition in parentheses that follows a keyword. -/
def condition (word : Keyword) : Cursor Expr := do
  let _ ← expectSymbol .openParen (.parenAfter word)
  let e ← expression
  let _ ← expectSymbol .closeParen .parenAfterCondition
  return e

/-- Reads the clause in parentheses that follows `for`: the loop variable and the items. -/
def forClause : Cursor (String × Expr) := do
  let _ ← expectSymbol .openParen (.parenAfter .forLoop)
  let name ← expectName .loopVariable
  let _ ← expect (·.isKeyword .inside) .inAfterLoopVariable
  let e ← expression
  let _ ← expectSymbol .closeParen .parenAfterForClause
  return (name, e)

/-- Reads the value that may follow `return`. -/
def returnValue : Cursor (Option Expr) := do
  match ← peek with
  | none => return none
  | some t =>
    if Parser.endsStatement t then
      return none
    else
      let e ← expression
      return some e

/-- Reads the other name that may follow an imported one. -/
def nickname : Cursor (Option String) := do
  if ← accept (·.isKeyword .known) then
    let name ← expectName .aliasName
    return some name
  else
    return none

section Blocks

variable (statement : Cursor Stmt)

/-- Reads a statement of a block and the separators behind it. -/
def blockRound (body : List Stmt) : Cursor (Round (List Stmt)) := do
  if ← check (·.isSymbol .closeBrace) then
    return .absent body
  else if ← isAtEnd then
    return .absent body
  else
    let s ← statement
    skip Token.isSeparator
    return .more (body ++ [s])

/-- Reads statements up to the closing brace of a block. -/
def blockBody : Cursor (List Stmt) := do
  let body ← loop (blockRound statement) []
  let _ ← expectSymbol .closeBrace .blockEnd
  return body

/-- Reads a block, and gives its statements with the region of the opening brace. -/
def block : Cursor (List Stmt × Span) := do
  skip Token.isNewline
  let opening ← expectSymbol .openBrace .blockStart
  skip Token.isSeparator
  let body ← blockBody statement
  return (body, opening.span)

/-- Reads what follows `else`: another condition, or a block. -/
def branch (conditional : Cursor Stmt) : Cursor Stmt := do
  skip Token.isNewline
  if ← check (·.isKeyword .cond) then
    conditional
  else
    let (body, start) ← block statement
    return .block body start

/-- Reads the `else` that may follow a block, with its branch. The cursor goes back if there is no
`else` behind the line ends. -/
def otherwise (conditional : Cursor Stmt) : Cursor (Option Stmt) := do
  let saved ← place
  skip Token.isNewline
  if ← accept (·.isKeyword .otherwise) then
    let s ← branch statement conditional
    return some s
  else
    moveTo saved
    return none

/-- Reads a condition, from its keyword on. -/
def conditional : Cursor Stmt :=
  recursive fun conditional => do
    let span ← advance
    let test ← condition .cond
    let (yes, start) ← block statement
    let no ← otherwise statement conditional
    return .cond test (.block yes start) no span

/-- Reads a loop with a condition, from its keyword on. -/
def whileLoop : Cursor Stmt := do
  let span ← advance
  let test ← condition .whileLoop
  let (body, start) ← block statement
  return .whileLoop test (.block body start) span

/-- Reads a loop through the items of an array, from its keyword on. -/
def forLoop : Cursor Stmt := do
  let span ← advance
  let (name, items) ← forClause
  let (body, start) ← block statement
  return .forLoop name items (.block body start) span

/-- Reads the declaration of a function, from its keyword on. -/
def function : Cursor Stmt := do
  let span ← advance
  let name ← expectName .functionName
  let _ ← expectSymbol .openParen .parenAfterFunctionName
  let params ← parameters
  let (body, _) ← block statement
  return .function name params body span

end Blocks

/-- Reads a return, from its keyword on. -/
def giveBack : Cursor Stmt := do
  let span ← advance
  let value ← returnValue
  return .giveBack value span

/-- Reads an import, from its keyword on. -/
def importing : Cursor Stmt := do
  let span ← advance
  let library ← expectName .moduleName
  let known ← nickname
  return .importing library known span

/-- Reads a statement. -/
def statement : Cursor Stmt :=
  watched .statement fun statement => do
    match (← peek).map Token.kind with
    | some (.keyword .function) => function statement
    | some (.keyword .cond) => conditional statement
    | some (.keyword .whileLoop) => whileLoop statement
    | some (.keyword .forLoop) => forLoop statement
    | some (.keyword .giveBack) => giveBack
    | some (.keyword .importing) => importing
    | some (.symbol .openBrace) =>
      let (body, start) ← block statement
      return .block body start
    | _ =>
      let e ← expression
      return .expr e

/-- Reads a statement of a program and the separators behind it. -/
def programRound (body : List Stmt) : Cursor (Round (List Stmt)) := do
  if ← isAtEnd then
    return .absent body
  else
    let s ← statement
    skip Token.isSeparator
    return .more (body ++ [s])

/-- Reads statements to the end of the tokens. -/
def program : Cursor Program := do
  skip Token.isSeparator
  loop programRound []

end Cursor

end QuantumScript
