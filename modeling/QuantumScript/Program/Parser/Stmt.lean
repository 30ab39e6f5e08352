import QuantumScript.Program.Parser.Expr
import QuantumScript.Token.Lexer

/-!
# From tokens to programs

Statements are told apart by their first token. Line ends and semicolons separate statements; line
ends are also skipped before the brace that opens a block and around `else`.
-/

namespace QuantumScript

namespace Parser

open Token Reading

mutual

/-- Reads at least one parameter and what follows up to the closing parenthesis. -/
def someParameters (ts : List Token) : Reading (List String) ts :=
  pastNewlines ts fun rest _ =>
  (takeName .parameterName rest).andThen fun (name, _) rest _ =>
  pastNewlines rest fun rest _ =>
  moreParameters name rest
termination_by ts.length

/-- Reads what follows a parameter: a comma and more parameters, or the closing parenthesis. -/
def moreParameters (name : String) (ts : List Token) : Reading (List String) ts :=
  match ts with
  | [] => .error ⟨.expected .parenAfterParameters, []⟩
  | t :: after =>
    if t.isSymbol .comma then .behind t <| (someParameters after).map fun others => name :: others
    else if t.isSymbol .closeParen then .token [name] t after
    else .error ⟨.expected .parenAfterParameters, t :: after⟩
termination_by ts.length

end

/-- Reads the parameters of a function up to the closing parenthesis. -/
def parameters (ts : List Token) : Reading (List String) ts :=
  if nextIs (·.isSymbol .closeParen) ts then
    pastNewlines ts fun rest _ =>
      (takeSymbol .closeParen .parenAfterParameters rest).map fun _ => []
  else someParameters ts

/-- Reads the condition in parentheses that follows a keyword. -/
def condition (word : Keyword) (ts : List Token) : Reading Expr ts :=
  (takeSymbol .openParen (.parenAfter word) ts).andThen fun _ rest _ =>
  (expression rest).andThen fun e rest _ =>
  (takeSymbol .closeParen .parenAfterCondition rest).map fun _ => e

/-- Reads the clause in parentheses that follows `for`: the loop variable and the items. -/
def forClause (ts : List Token) : Reading (String × Expr) ts :=
  (takeSymbol .openParen (.parenAfter .forLoop) ts).andThen fun _ rest _ =>
  (takeName .loopVariable rest).andThen fun (name, _) rest _ =>
  (takeKeyword .inside .inAfterLoopVariable rest).andThen fun _ rest _ =>
  (expression rest).andThen fun e rest _ =>
  (takeSymbol .closeParen .parenAfterForClause rest).map fun _ => (name, e)

/-- Whether a statement may end before a token: a separator or a closing brace. -/
def endsStatement (t : Token) : Bool :=
  t.isSeparator || t.isSymbol .closeBrace

/-- Reads the value that may follow `return`. -/
def returnValue (ts : List Token) : LooseReading (Option Expr) ts :=
  match ts with
  | [] => .nothing none []
  | t :: after =>
    if endsStatement t then .nothing none (t :: after)
    else ((expression (t :: after)).map some).loosen

/-- Reads the other name that may follow an imported one. -/
def nickname (ts : List Token) : LooseReading (Option String) ts :=
  match ts with
  | [] => .nothing none []
  | t :: after =>
    if t.isKeyword .known then
      .behind t <| (takeName .aliasName after).map fun (name, _) => some name
    else .nothing none (t :: after)

mutual

/-- Reads a statement. -/
def statement (ts : List Token) : Reading Stmt ts :=
  match ts with
  | [] => .error ⟨.expression, []⟩
  | t :: after =>
    match t.kind with
    | .keyword .function =>
      .behind t <|
      (takeName .functionName after).andThen fun (name, _) rest _ =>
      (takeSymbol .openParen .parenAfterFunctionName rest).andThen fun _ rest _ =>
      (parameters rest).andThen fun params rest _ =>
      (block rest).map fun (body, _) => .function name params body t.span
    | .keyword .cond => .behind t <| conditional t.span after
    | .keyword .whileLoop =>
      .behind t <|
      (condition .whileLoop after).andThen fun test rest _ =>
      (block rest).map fun (body, start) => .whileLoop test (.block body start) t.span
    | .keyword .forLoop =>
      .behind t <|
      (forClause after).andThen fun (name, items) rest _ =>
      (block rest).map fun (body, start) => .forLoop name items (.block body start) t.span
    | .keyword .giveBack =>
      (Reading.token () t after).andMaybe fun _ rest _ =>
      (returnValue rest).map fun value => .giveBack value t.span
    | .keyword .importing =>
      .behind t <|
      (takeName .moduleName after).andMaybe fun (library, _) rest _ =>
      (nickname rest).map fun known => .importing library known t.span
    | .symbol .openBrace => (block (t :: after)).map fun (body, start) => .block body start
    | _ => (expression (t :: after)).map .expr
termination_by (ts.length, 1)

/-- Reads what follows `if`, with the region of that word: the condition, the block and possibly
`else` with another branch. -/
def conditional (span : Span) (ts : List Token) : Reading Stmt ts :=
  (condition .cond ts).andThen fun test rest _ =>
  (block rest).andMaybe fun (yes, start) rest _ =>
  (otherwise rest).map fun no => .cond test (.block yes start) no span
termination_by (ts.length, 0)

/-- Reads the `else` that may follow a block, with its branch. -/
def otherwise (ts : List Token) : LooseReading (Option Stmt) ts :=
  if nextIs (·.isKeyword .otherwise) ts then
    loosen <|
    pastNewlines ts fun rest _ =>
    (takeKeyword .otherwise .blockStart rest).andThen fun _ rest _ =>
    (branch rest).map some
  else .nothing none ts
termination_by (ts.length, 0)

/-- Reads what follows `else`: another `if`, or a block. -/
def branch (ts : List Token) : Reading Stmt ts :=
  if nextIs (·.isKeyword .cond) ts then
    pastNewlines ts fun rest _ =>
    (takeKeyword .cond .blockStart rest).andThen fun t rest _ =>
    conditional t.span rest
  else (block ts).map fun (body, start) => .block body start
termination_by (ts.length, 1)

/-- Reads a block, and gives its statements with the region of the opening brace. -/
def block (ts : List Token) : Reading (List Stmt × Span) ts :=
  pastNewlines ts fun rest _ =>
  (takeSymbol .openBrace .blockStart rest).andThen fun opening rest _ =>
  pastSeparators rest fun rest _ =>
  (blockBody rest).map fun body => (body, opening.span)
termination_by (ts.length, 0)

/-- Reads statements up to the closing brace of a block. -/
def blockBody (ts : List Token) : Reading (List Stmt) ts :=
  match ts with
  | [] => .error ⟨.expected .blockEnd, []⟩
  | t :: after =>
    if t.isSymbol .closeBrace then .token [] t after
    else
      (statement (t :: after)).andThen fun s rest _ =>
      pastSeparators rest fun rest _ =>
      (blockBody rest).map fun others => s :: others
termination_by (ts.length, 2)
decreasing_by
  · decreasing_tactic
  · simp only [Prod.lex_def, List.length_cons] at *; omega

end

/-- Reads statements to the end of the tokens. -/
def statements (ts : List Token) : Except Stuck Program :=
  match ts with
  | [] => .ok []
  | t :: after =>
    match statement (t :: after) with
    | .error stuck => .error stuck
    | .ok ⟨s, rest, _⟩ =>
      have := length_skipSeparators_le rest
      (statements (skipSeparators rest)).map fun others => s :: others
termination_by ts.length
decreasing_by simp only [List.length_cons] at *; omega

end Parser

/-- The program that some tokens spell. -/
def parse (tokens : Tokens) : Except Fault Program :=
  match Parser.statements (Token.skipSeparators tokens.items) with
  | .ok program => .ok program
  | .error stuck => .error (stuck.fault tokens.ending)

/-- The program that a source text spells. -/
def parseSource (source : String) : Except Fault Program := do
  parse (← tokenize source)

end QuantumScript
