import QuantumScript.Proofs.Grammar.Level
import QuantumScript.Proofs.Program.Shape

/-!
# The grammar by its productions

The grammar of the language as it is published, one constructor for each alternative of a
production. `Derives` has the productions of expressions, `DerivesClause` those of statements and
`Sentence` the one of programs. They relate trees without places to what their tokens are.

A repetition such as `additive (('+' | '-') additive)*` has a form of its own, which goes from the
tree of what stands before it to the tree of the whole: so operators between operands associate to
the left and suffixes pile up from the left.
-/

namespace QuantumScript

/-- Two trees joined by an operator. -/
def Joint.tree : Joint → Expr → Expr → Expr
  | binary op, left, right => .binary op left right .anywhere
  | logical op, left, right => .logical op left right .anywhere

namespace Grammar

open Token (Kind)

/-- All of some tokens are line ends. -/
def Blank (ks : List Kind) : Prop :=
  ∀ k ∈ ks, k = .newline

/-- All of some tokens are line ends or semicolons. -/
def Seps (ks : List Kind) : Prop :=
  ∀ k ∈ ks, k = .newline ∨ k = .symbol .semicolon

/-! ## Expressions -/

/-- A name as the target of an assignment, possibly in parentheses. -/
inductive Target (name : String) : List Kind → Prop
  /-- The name. -/
  | plain : Target name [.name name]
  /-- A target in parentheses. -/
  | paren {before ks after : List Kind} (hbefore : Blank before) (inner : Target name ks)
    (hafter : Blank after) :
    Target name (.symbol .openParen :: (before ++ (ks ++ (after ++ [.symbol .closeParen]))))

/-- What the productions of expressions are about. -/
inductive Form
  /-- An expression of a level. -/
  | expr (level : Level) (e : Expr)
  /-- Any number of operators of a level with their right operands, from the tree before them to the
  whole. -/
  | joined (level : Level) (left e : Expr)
  /-- Any number of suffixes, from the tree before them to the whole. -/
  | suffixed (base e : Expr)
  /-- Any number of expressions, divided by commas. -/
  | list (es : List Expr)

/-- The productions of expressions. -/
inductive Derives : Form → List Kind → Prop
  /-- `assignment := target '=' assignment` -/
  | assign {name : String} {value : Expr} {ns ks : List Kind} (target : Target name ns)
    (source : Derives (.expr .assignment value) ks) :
    Derives (.expr .assignment (.assign name value .anywhere)) (ns ++ .symbol .assign :: ks)
  /-- `assignment := logic_or` -/
  | noAssign {e : Expr} {ks : List Kind} (inner : Derives (.expr .disjunction e) ks) :
    Derives (.expr .assignment e) ks
  /-- From `logic_or := logic_and ('or' logic_and)*` to
  `multiplicative := power (('*' | '/' | '%') power)*`. -/
  | chain {level : Level} {left e : Expr} {ks us : List Kind} (loosest : .disjunction ≤ level)
    (tightest : level ≤ .product) (first : Derives (.expr level.next left) ks)
    (more : Derives (.joined level left e) us) : Derives (.expr level e) (ks ++ us)
  /-- No operator follows. -/
  | joinedNone {level : Level} {e : Expr} : Derives (.joined level e e) []
  /-- An operator of the level and its right operand follow. -/
  | joinedMore {level : Level} {joint : Joint} {left right e : Expr} {ks us : List Kind}
    (own : joint.level = level) (operand : Derives (.expr level.next right) ks)
    (more : Derives (.joined level (joint.tree left right) e) us) :
    Derives (.joined level left e) (joint.kind :: (ks ++ us))
  /-- `power := unary` -/
  | noPower {e : Expr} {ks : List Kind} (inner : Derives (.expr .unary e) ks) :
    Derives (.expr .power e) ks
  /-- `power := unary '**' power` -/
  | power {left right : Expr} {ks us : List Kind} (base : Derives (.expr .unary left) ks)
    (exponent : Derives (.expr .power right) us) :
    Derives (.expr .power (.binary .pow left right .anywhere)) (ks ++ .symbol .power :: us)
  /-- `unary := ('-' | 'not') unary` -/
  | unary {op : UnaryOp} {e : Expr} {ks : List Kind} (operand : Derives (.expr .unary e) ks) :
    Derives (.expr .unary (.unary op e .anywhere)) (op.kind :: ks)
  /-- `unary := postfix` -/
  | noUnary {e : Expr} {ks : List Kind} (inner : Derives (.expr .suffix e) ks) :
    Derives (.expr .unary e) ks
  /-- `postfix := primary ( '(' args? ')' | '.' IDENT | '[' expr ']' )*` -/
  | suffix {base e : Expr} {ks us : List Kind} (first : Derives (.expr .primary base) ks)
    (more : Derives (.suffixed base e) us) : Derives (.expr .suffix e) (ks ++ us)
  /-- No suffix follows. -/
  | suffixedNone {e : Expr} : Derives (.suffixed e e) []
  /-- The arguments of a call follow something that is no member. -/
  | call {callee e : Expr} {args : List Expr} {ks us : List Kind}
    (other : callee.isMember = false) (arguments : Derives (.list args) ks)
    (more : Derives (.suffixed (.call callee args .anywhere) e) us) :
    Derives (.suffixed callee e) (.symbol .openParen :: (ks ++ .symbol .closeParen :: us))
  /-- The arguments of a call follow a member, which makes it the call of a method. -/
  | methodCall {object e : Expr} {method : String} {args : List Expr} {ks us : List Kind}
    (arguments : Derives (.list args) ks)
    (more : Derives (.suffixed (.methodCall object method args .anywhere) e) us) :
    Derives (.suffixed (.member object method .anywhere) e)
      (.symbol .openParen :: (ks ++ .symbol .closeParen :: us))
  /-- A dot and the name of a member follow. -/
  | member {object e : Expr} {name : String} {us : List Kind}
    (more : Derives (.suffixed (.member object name .anywhere) e) us) :
    Derives (.suffixed object e) (.symbol .dot :: .name name :: us)
  /-- A place in brackets follows. -/
  | index {object place e : Expr} {before ks after us : List Kind} (hbefore : Blank before)
    (inner : Derives (.expr .assignment place) ks) (hafter : Blank after)
    (more : Derives (.suffixed (.index object place .anywhere) e) us) :
    Derives (.suffixed object e)
      (.symbol .openBracket :: (before ++ (ks ++ (after ++ .symbol .closeBracket :: us))))
  /-- `primary := NUMBER` -/
  | number {value : Float} : Derives (.expr .primary (.number value .anywhere)) [.number value]
  /-- `primary := STRING` -/
  | text {value : String} : Derives (.expr .primary (.text value .anywhere)) [.text value]
  /-- `primary := 'true'` -/
  | yes : Derives (.expr .primary (.bool true .anywhere)) [.keyword .yes]
  /-- `primary := 'false'` -/
  | no : Derives (.expr .primary (.bool false .anywhere)) [.keyword .no]
  /-- `primary := 'null'` -/
  | null : Derives (.expr .primary (.null .anywhere)) [.keyword .null]
  /-- `primary := IDENT` -/
  | name {name : String} : Derives (.expr .primary (.name name .anywhere)) [.name name]
  /-- `primary := '(' expr ')'` -/
  | paren {e : Expr} {before ks after : List Kind} (hbefore : Blank before)
    (inner : Derives (.expr .assignment e) ks) (hafter : Blank after) :
    Derives (.expr .primary e)
      (.symbol .openParen :: (before ++ (ks ++ (after ++ [.symbol .closeParen]))))
  /-- `primary := '[' args? ']'` -/
  | array {es : List Expr} {ks : List Kind} (elements : Derives (.list es) ks) :
    Derives (.expr .primary (.array es .anywhere))
      (.symbol .openBracket :: (ks ++ [.symbol .closeBracket]))
  /-- No items. -/
  | listNone {ks : List Kind} (blank : Blank ks) : Derives (.list []) ks
  /-- The last item. -/
  | listLast {e : Expr} {before ks after : List Kind} (hbefore : Blank before)
    (item : Derives (.expr .assignment e) ks) (hafter : Blank after) :
    Derives (.list [e]) (before ++ (ks ++ after))
  /-- An item with others after it. -/
  | listMore {e next : Expr} {es : List Expr} {before ks after others : List Kind}
    (hbefore : Blank before) (item : Derives (.expr .assignment e) ks) (hafter : Blank after)
    (rest : Derives (.list (next :: es)) others) :
    Derives (.list (e :: next :: es)) (before ++ (ks ++ (after ++ .symbol .comma :: others)))

/-! ## Statements -/

/-- The names of parameters, divided by commas. -/
inductive DerivesNames : List String → List Kind → Prop
  /-- No names. -/
  | none {ks : List Kind} (blank : Blank ks) : DerivesNames [] ks
  /-- The last name. -/
  | last {name : String} {before after : List Kind} (hbefore : Blank before)
    (hafter : Blank after) : DerivesNames [name] (before ++ .name name :: after)
  /-- A name with others after it. -/
  | more {name next : String} {names : List String} {before after others : List Kind}
    (hbefore : Blank before) (hafter : Blank after) (rest : DerivesNames (next :: names) others) :
    DerivesNames (name :: next :: names)
      (before ++ .name name :: (after ++ .symbol .comma :: others))

/-- What the productions of statements are about. -/
inductive ClauseForm
  /-- A statement. -/
  | statement (s : Stmt)
  /-- A condition. -/
  | condition (s : Stmt)
  /-- What stands after `else`. -/
  | branch (s : Stmt)
  /-- The statements of a block, in braces. -/
  | block (body : List Stmt)
  /-- Any number of statements with separators after each. -/
  | body (ss : List Stmt)

/-- The productions of statements. -/
inductive DerivesClause : ClauseForm → List Kind → Prop
  /-- `statement := expr` -/
  | expr {e : Expr} {ks : List Kind} (inner : Derives (.expr .assignment e) ks) :
    DerivesClause (.statement (.expr e)) ks
  /-- `statement := block` -/
  | ofBlock {body : List Stmt} {ks : List Kind} (inner : DerivesClause (.block body) ks) :
    DerivesClause (.statement (.block body .anywhere)) ks
  /-- `statement := if_stmt` -/
  | ofCondition {s : Stmt} {ks : List Kind} (inner : DerivesClause (.condition s) ks) :
    DerivesClause (.statement s) ks
  /-- `if_stmt := 'if' '(' expr ')' block` -/
  | cond {e : Expr} {yes : List Stmt} {cs before ys : List Kind}
    (test : Derives (.expr .assignment e) cs) (hbefore : Blank before)
    (first : DerivesClause (.block yes) ys) :
    DerivesClause (.condition (.cond e (.block yes .anywhere) none .anywhere))
      (.keyword .cond :: .symbol .openParen :: (cs ++ .symbol .closeParen :: (before ++ ys)))
  /-- `if_stmt := 'if' '(' expr ')' block 'else' (if_stmt | block)` -/
  | condElse {e : Expr} {yes : List Stmt} {no : Stmt} {cs before ys between after ns : List Kind}
    (test : Derives (.expr .assignment e) cs) (hbefore : Blank before)
    (first : DerivesClause (.block yes) ys) (hbetween : Blank between) (hafter : Blank after)
    (second : DerivesClause (.branch no) ns) :
    DerivesClause (.condition (.cond e (.block yes .anywhere) (some no) .anywhere))
      (.keyword .cond :: .symbol .openParen :: (cs ++ .symbol .closeParen ::
        (before ++ (ys ++ (between ++ .keyword .otherwise :: (after ++ ns))))))
  /-- Another condition after `else`. -/
  | branchCondition {s : Stmt} {ks : List Kind} (inner : DerivesClause (.condition s) ks) :
    DerivesClause (.branch s) ks
  /-- A block after `else`. -/
  | branchBlock {body : List Stmt} {ks : List Kind} (inner : DerivesClause (.block body) ks) :
    DerivesClause (.branch (.block body .anywhere)) ks
  /-- `while_stmt := 'while' '(' expr ')' block` -/
  | whileLoop {e : Expr} {body : List Stmt} {cs before bs : List Kind}
    (test : Derives (.expr .assignment e) cs) (hbefore : Blank before)
    (inner : DerivesClause (.block body) bs) :
    DerivesClause (.statement (.whileLoop e (.block body .anywhere) .anywhere))
      (.keyword .whileLoop :: .symbol .openParen :: (cs ++ .symbol .closeParen :: (before ++ bs)))
  /-- `for_stmt := 'for' '(' IDENT 'in' expr ')' block` -/
  | forLoop {binder : String} {e : Expr} {body : List Stmt} {cs before bs : List Kind}
    (items : Derives (.expr .assignment e) cs) (hbefore : Blank before)
    (inner : DerivesClause (.block body) bs) :
    DerivesClause (.statement (.forLoop binder e (.block body .anywhere) .anywhere))
      (.keyword .forLoop :: .symbol .openParen :: .name binder :: .keyword .inside ::
        (cs ++ .symbol .closeParen :: (before ++ bs)))
  /-- `function_decl := 'function' IDENT '(' params? ')' block` -/
  | function {name : String} {params : List String} {body : List Stmt} {ps before bs : List Kind}
    (parameters : DerivesNames params ps) (hbefore : Blank before)
    (inner : DerivesClause (.block body) bs) :
    DerivesClause (.statement (.function name params body .anywhere))
      (.keyword .function :: .name name :: .symbol .openParen ::
        (ps ++ .symbol .closeParen :: (before ++ bs)))
  /-- `return_stmt := 'return'` -/
  | giveBack : DerivesClause (.statement (.giveBack none .anywhere)) [.keyword .giveBack]
  /-- `return_stmt := 'return' expr` -/
  | giveBackValue {e : Expr} {ks : List Kind} (inner : Derives (.expr .assignment e) ks) :
    DerivesClause (.statement (.giveBack (some e) .anywhere)) (.keyword .giveBack :: ks)
  /-- `import_stmt := 'import' IDENT` -/
  | importing {library : String} :
    DerivesClause (.statement (.importing library none .anywhere))
      [.keyword .importing, .name library]
  /-- `import_stmt := 'import' IDENT 'as' IDENT` -/
  | importingAs {library nickname : String} :
    DerivesClause (.statement (.importing library (some nickname) .anywhere))
      [.keyword .importing, .name library, .keyword .known, .name nickname]
  /-- `block := '{' sep* (statement sep*)* '}'` -/
  | block {ss : List Stmt} {lead ks : List Kind} (hlead : Seps lead)
    (inner : DerivesClause (.body ss) ks) :
    DerivesClause (.block ss)
      (.symbol .openBrace :: (lead ++ (ks ++ [.symbol .closeBrace])))
  /-- No statement follows. -/
  | bodyNone : DerivesClause (.body []) []
  /-- A statement with its separators follows. After a `return` without a value there is a
  separator, or the end of the block or the program. -/
  | bodyMore {s : Stmt} {ss : List Stmt} {ks between rest : List Kind}
    (first : DerivesClause (.statement s) ks) (hbetween : Seps between)
    (ends : s = .giveBack none .anywhere → between ≠ [] ∨ rest = [])
    (others : DerivesClause (.body ss) rest) :
    DerivesClause (.body (s :: ss)) (ks ++ (between ++ rest))

/-- `program := sep* (statement sep*)* EOF` -/
def Sentence (program : Program) (ks : List Kind) : Prop :=
  ∃ lead rest, Seps lead ∧ DerivesClause (.body program) rest ∧ ks = lead ++ rest

end Grammar

end QuantumScript
