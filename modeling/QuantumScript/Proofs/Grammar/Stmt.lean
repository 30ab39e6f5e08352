import QuantumScript.Program.Parser.Stmt
import QuantumScript.Proofs.Grammar.Expr
import QuantumScript.Proofs.Program.Shape

/-!
# The grammar of statements

`SpellsClause` relates statements to the tokens that spell them. Statements of a block or a program
have separators between them; how many there must be is left open by `apart`, which says whether a
statement may end before the tokens that follow it. Two readings of it matter: `Separated`, where at
least one separator follows each statement but the last, and `Stmt.StopsAt`, where the tokens that
follow merely do not go on with the statement. The first implies the second (`SpellsClause.stops`).
-/

namespace QuantumScript

namespace Grammar

/-- All of some tokens may stand between two statements. -/
def Separators (ts : List Token) : Prop :=
  ∀ t ∈ ts, t.isSeparator

/-- Tokens that spell the names of parameters, divided by commas. -/
inductive SpellsNames : List String → List Token → Prop
  /-- No names. -/
  | none {ts : List Token} (blank : LineEnds ts) : SpellsNames [] ts
  /-- The last of some names. -/
  | last {label : Token} {name : String} {before after : List Token} (hbefore : LineEnds before)
    (labelled : label.kind = .name name) (hafter : LineEnds after) :
    SpellsNames [name] (before ++ label :: after)
  /-- A name with others after it. -/
  | more {label comma : Token} {name next : String} {names : List String}
    {before after others : List Token} (hbefore : LineEnds before)
    (labelled : label.kind = .name name) (hafter : LineEnds after)
    (divided : comma.kind = .symbol .comma) (rest : SpellsNames (next :: names) others) :
    SpellsNames (name :: next :: names) (before ++ label :: (after ++ comma :: others))

/-- Tokens that spell an expression in parentheses after a keyword, without line ends. -/
inductive SpellsCondition (e : Expr) : List Token → Prop
  /-- An expression in parentheses. -/
  | intro {opening closing : Token} {ts : List Token} (opens : opening.kind = .symbol .openParen)
    (inner : Spells (.one .assignment e) ts) (closes : closing.kind = .symbol .closeParen) :
    SpellsCondition e (opening :: (ts ++ [closing]))

/-- Tokens that spell the loop variable and the items in parentheses after `for`. -/
inductive SpellsForClause (binder : String) (e : Expr) : List Token → Prop
  /-- A name, `in` and an expression in parentheses. -/
  | intro {opening label word closing : Token} {ts : List Token}
    (opens : opening.kind = .symbol .openParen) (labelled : label.kind = .name binder)
    (worded : word.kind = .keyword .inside) (inner : Spells (.one .assignment e) ts)
    (closes : closing.kind = .symbol .closeParen) :
    SpellsForClause binder e (opening :: label :: word :: (ts ++ [closing]))

/-- What some tokens of a program may spell. -/
inductive Clause
  /-- One statement. -/
  | stmt (s : Stmt)
  /-- The statements of a block, in braces, with the region of the opening brace. -/
  | block (body : List Stmt) (start : Span)
  /-- Statements one after the other. -/
  | body (ss : List Stmt)

/-- Tokens that spell a clause, where a statement may end before the tokens that `apart` allows. -/
inductive SpellsClause (apart : Stmt → List Token → Prop) : Clause → List Token → Prop
  /-- An expression. -/
  | expr {e : Expr} {ts : List Token} (inner : Spells (.one .assignment e) ts) :
    SpellsClause apart (.stmt (.expr e)) ts
  /-- A block. -/
  | block {body : List Stmt} {start : Span} {ts : List Token}
    (inner : SpellsClause apart (.block body start) ts) :
    SpellsClause apart (.stmt (.block body start)) ts
  /-- A condition without `else`. -/
  | cond {word : Token} {e : Expr} {yes : List Stmt} {start : Span} {cs before ys : List Token}
    (worded : word.kind = .keyword .cond) (test : SpellsCondition e cs)
    (hbefore : LineEnds before) (first : SpellsClause apart (.block yes start) ys) :
    SpellsClause apart (.stmt (.cond e (.block yes start) none word.span))
      (word :: (cs ++ (before ++ ys)))
  /-- A condition with `else` and a block or another condition. -/
  | condElse {word other : Token} {e : Expr} {yes : List Stmt} {start : Span} {no : Stmt}
    {cs before ys between after ns : List Token} (worded : word.kind = .keyword .cond)
    (test : SpellsCondition e cs) (hbefore : LineEnds before)
    (first : SpellsClause apart (.block yes start) ys) (hbetween : LineEnds between)
    (othered : other.kind = .keyword .otherwise) (hafter : LineEnds after)
    (branch : no.isBranch) (second : SpellsClause apart (.stmt no) ns) :
    SpellsClause apart (.stmt (.cond e (.block yes start) (some no) word.span))
      (word :: (cs ++ (before ++ (ys ++ (between ++ other :: (after ++ ns))))))
  /-- A loop with a condition. -/
  | whileLoop {word : Token} {e : Expr} {body : List Stmt} {start : Span}
    {cs before bs : List Token}
    (worded : word.kind = .keyword .whileLoop) (test : SpellsCondition e cs)
    (hbefore : LineEnds before) (inner : SpellsClause apart (.block body start) bs) :
    SpellsClause apart (.stmt (.whileLoop e (.block body start) word.span))
      (word :: (cs ++ (before ++ bs)))
  /-- A loop through the items of an array. -/
  | forLoop {word : Token} {binder : String} {e : Expr} {body : List Stmt} {start : Span}
    {cs before bs : List Token} (worded : word.kind = .keyword .forLoop)
    (clause : SpellsForClause binder e cs) (hbefore : LineEnds before)
    (inner : SpellsClause apart (.block body start) bs) :
    SpellsClause apart (.stmt (.forLoop binder e (.block body start) word.span))
      (word :: (cs ++ (before ++ bs)))
  /-- A function. -/
  | function {word label opening closing : Token} {name : String} {params : List String}
    {body : List Stmt} {start : Span} {ps before bs : List Token}
    (worded : word.kind = .keyword .function) (labelled : label.kind = .name name)
    (opens : opening.kind = .symbol .openParen) (parameters : SpellsNames params ps)
    (closes : closing.kind = .symbol .closeParen) (hbefore : LineEnds before)
    (inner : SpellsClause apart (.block body start) bs) :
    SpellsClause apart (.stmt (.function name params body word.span))
      (word :: label :: opening :: (ps ++ closing :: (before ++ bs)))
  /-- A return without a value. -/
  | giveBack {word : Token} (worded : word.kind = .keyword .giveBack) :
    SpellsClause apart (.stmt (.giveBack none word.span)) [word]
  /-- A return with a value. -/
  | giveBackValue {word : Token} {e : Expr} {ts : List Token}
    (worded : word.kind = .keyword .giveBack) (inner : Spells (.one .assignment e) ts) :
    SpellsClause apart (.stmt (.giveBack (some e) word.span)) (word :: ts)
  /-- An import. -/
  | importing {word label : Token} {library : String} (worded : word.kind = .keyword .importing)
    (labelled : label.kind = .name library) :
    SpellsClause apart (.stmt (.importing library none word.span)) [word, label]
  /-- An import under another name. -/
  | importingAs {word label known other : Token} {library nickname : String}
    (worded : word.kind = .keyword .importing) (labelled : label.kind = .name library)
    (knownAs : known.kind = .keyword .known) (named : other.kind = .name nickname) :
    SpellsClause apart (.stmt (.importing library (some nickname) word.span))
      [word, label, known, other]
  /-- Statements in braces. -/
  | braces {opening closing : Token} {ss : List Stmt} {lead ts : List Token}
    (opens : opening.kind = .symbol .openBrace) (hlead : Separators lead)
    (inner : SpellsClause apart (.body ss) ts) (closes : closing.kind = .symbol .closeBrace) :
    SpellsClause apart (.block ss opening.span) (opening :: (lead ++ (ts ++ [closing])))
  /-- No statements. -/
  | nil : SpellsClause apart (.body []) []
  /-- A statement, separators and the statements after them. -/
  | cons {s : Stmt} {ss : List Stmt} {ts between rest : List Token}
    (first : SpellsClause apart (.stmt s) ts) (hbetween : Separators between)
    (ends : apart s (between ++ rest)) (others : SpellsClause apart (.body ss) rest) :
    SpellsClause apart (.body (s :: ss)) (ts ++ (between ++ rest))

/-- Tokens that spell a program: its statements, with separators before the first. -/
def SpellsProgram (apart : Stmt → List Token → Prop) (program : Program) (ts : List Token) : Prop :=
  ∃ lead rest, Separators lead ∧ SpellsClause apart (.body program) rest ∧ ts = lead ++ rest

/-! ## What follows a statement -/

/-- Nothing or a separator follows. -/
def Separated (_ : Stmt) (rest : List Token) : Prop :=
  ∀ t ∈ rest.head?, t.isSeparator

/-- What follows does not start with `else`, line ends aside. -/
def NoElse (rest : List Token) : Prop :=
  Token.nextIs (·.isKeyword .otherwise) rest = false

/-- How a statement ends, as far as it may be gone on with. -/
inductive Ending
  /-- With an expression. -/
  | value
  /-- With `return`, without a value. -/
  | bareReturn
  /-- With the name of an import, without another name. -/
  | bareImport
  /-- With the block of a condition, without `else`. -/
  | noElse
  /-- So that nothing goes on with it. -/
  | closed

/-- What follows does not go on with a statement that ends in a way. -/
def Ending.StopsAt : Ending → List Token → Prop
  | value, rest => Stops .assignment rest
  | bareReturn, rest => ∀ t ∈ rest.head?, Parser.endsStatement t
  | bareImport, rest => ∀ t ∈ rest.head?, t.isKeyword .known = false
  | noElse, rest => NoElse rest
  | closed, _ => True

end Grammar

/-- How a statement ends. -/
def Stmt.ending : Stmt → Grammar.Ending
  | .expr _ | .giveBack (some _) _ => .value
  | .giveBack none _ => .bareReturn
  | .importing _ none _ => .bareImport
  | .cond _ _ none _ => .noElse
  | .cond _ _ (some no) _ => no.ending
  | .importing _ (some _) _ | .block _ _ | .whileLoop _ _ _ | .forLoop _ _ _ _
  | .function _ _ _ _ => .closed

/-- What follows does not go on with a statement. -/
def Stmt.StopsAt (s : Stmt) (rest : List Token) : Prop :=
  s.ending.StopsAt rest

/-- Whether a token may be the first of a statement. -/
def Token.startsStmt (t : Token) : Bool :=
  t.startsExpr ||
    match t.kind with
    | .keyword .function | .keyword .cond | .keyword .whileLoop | .keyword .forLoop
    | .keyword .giveBack | .keyword .importing | .symbol .openBrace => true
    | _ => false

namespace Grammar

variable {apart : Stmt → List Token → Prop} {ts rest : List Token} {s : Stmt}

/-- Every block is spelled with an opening brace first. -/
theorem SpellsClause.opens {body : List Stmt} {start : Span}
    (h : SpellsClause apart (.block body start) ts) :
    ∃ t us, ts = t :: us ∧ t.kind = .symbol .openBrace := by
  cases h with
  | braces opens => exact ⟨_, _, rfl, opens⟩

/-- Every statement is spelled with a first token, which may start a statement. A block starts with
a brace and a condition with its keyword. -/
theorem SpellsClause.starts (h : SpellsClause apart (.stmt s) ts) :
    ∃ t us, ts = t :: us ∧ t.startsStmt ∧
      (s.isBranch → t.kind = .keyword .cond ∨ t.kind = .symbol .openBrace) := by
  cases h with
  | expr inner =>
    obtain ⟨t, us, rfl, ht⟩ := inner.starts
    exact ⟨t, us, rfl, by simp [Token.startsStmt, ht], fun h => by simp [Stmt.isBranch] at h⟩
  | block inner =>
    obtain ⟨t, us, rfl, ht⟩ := inner.opens
    exact ⟨t, us, rfl, by simp [Token.startsStmt, ht], fun _ => .inr ht⟩
  | cond worded | condElse worded =>
    exact ⟨_, _, rfl, by simp [Token.startsStmt, worded], fun _ => .inl worded⟩
  | whileLoop worded | forLoop worded | function worded | giveBack worded | giveBackValue worded
  | importing worded | importingAs worded =>
    exact ⟨_, _, rfl, by simp [Token.startsStmt, worded], fun h => by simp [Stmt.isBranch] at h⟩

/-- No statement starts with a separator, a closing brace or `else`. -/
theorem not_of_startsStmt {t : Token} (h : t.startsStmt) :
    t.isSeparator = false ∧ t.isSymbol .closeBrace = false ∧ t.isKeyword .otherwise = false := by
  refine ⟨?_, ?_, ?_⟩
  · simp only [Token.isSeparator, Token.isNewline, Token.isSymbol, Bool.or_eq_false_iff,
      decide_eq_false_iff_not]
    refine ⟨fun hk => ?_, fun hk => ?_⟩ <;>
      simp [Token.startsStmt, Token.startsExpr, Token.startsPlain, hk] at h
  · simp only [Token.isSymbol, decide_eq_false_iff_not]
    intro hk
    simp [Token.startsStmt, Token.startsExpr, Token.startsPlain, hk] at h
  · simp only [Token.isKeyword, decide_eq_false_iff_not]
    intro hk
    simp [Token.startsStmt, Token.startsExpr, Token.startsPlain, hk] at h

/-- The first token of some statements, if there are any, may start a statement. -/
theorem SpellsClause.body_starts {ss : List Stmt} (h : SpellsClause apart (.body ss) ts) :
    ∀ t ∈ ts.head?, t.startsStmt := by
  cases h with
  | nil =>
    intro t ht
    cases ht
  | cons first =>
    obtain ⟨t, us, rfl, ht, -⟩ := first.starts
    rintro _ ⟨⟩
    exact ht

/-- Separators before tokens that do not start with `else` do not make them start with it. -/
theorem noElse_separators {between : List Token} (hb : Separators between)
    (hr : ∀ t ∈ rest.head?, t.isKeyword .otherwise = false ∧ t.isNewline = false) :
    NoElse (between ++ rest) := by
  unfold NoElse Token.nextIs Token.skipNewlines
  induction between with
  | nil =>
    cases rest with
    | nil => rfl
    | cons t us =>
      obtain ⟨hk, hn⟩ := hr t rfl
      simp [List.dropWhile_cons_of_neg, hn, hk]
  | cons t between ih =>
    cases hn : t.isNewline with
    | true =>
      rw [List.cons_append, List.dropWhile_cons_of_pos hn]
      exact ih fun u hu => hb u (List.mem_cons_of_mem t hu)
    | false =>
      -- A separator that is no line end is a semicolon.
      have ht : t.isSymbol .semicolon = true := by
        simpa [Token.isSeparator, hn] using hb t (by simp)
      rw [List.cons_append, List.dropWhile_cons_of_neg (by simp [hn])]
      simp only [Token.isSymbol, decide_eq_true_eq] at ht
      simp [Token.isKeyword, ht]

/-- A separator after a statement does not go on with it, if no `else` follows. -/
theorem stopsAt_of_separated (h : Separated s rest) (hn : NoElse rest) : s.StopsAt rest := by
  have hlink : Stops .assignment rest := by
    intro t ht link hl
    have hs := h t ht
    simp only [Token.isSeparator, Token.isNewline, Token.isSymbol, Bool.or_eq_true,
      decide_eq_true_eq] at hs
    rcases hs with hk | hk <;> rw [hk] at hl <;> cases hl
  unfold Stmt.StopsAt
  cases s.ending with
  | value => exact hlink
  | bareReturn =>
    intro t ht
    simp [Parser.endsStatement, h t ht]
  | bareImport =>
    intro t ht
    have hs := h t ht
    simp only [Token.isSeparator, Token.isNewline, Token.isSymbol, Bool.or_eq_true,
      decide_eq_true_eq] at hs
    simp only [Token.isKeyword, decide_eq_false_iff_not]
    rcases hs with hk | hk <;> rw [hk] <;> simp
  | noElse => exact hn
  | closed => trivial

/-- Statements with separators between them are spelled so that no statement goes on. -/
theorem SpellsClause.stops {clause : Clause} (h : SpellsClause Separated clause ts) :
    SpellsClause Stmt.StopsAt clause ts := by
  induction h with
  | expr inner => exact .expr inner
  | block _ ih => exact .block ih
  | cond worded test hbefore _ ih => exact .cond worded test hbefore ih
  | condElse worded test hbefore _ hbetween othered hafter branch _ ihf ihs =>
    exact .condElse worded test hbefore ihf hbetween othered hafter branch ihs
  | whileLoop worded test hbefore _ ih => exact .whileLoop worded test hbefore ih
  | forLoop worded clause hbefore _ ih => exact .forLoop worded clause hbefore ih
  | function worded labelled opens parameters closes hbefore _ ih =>
    exact .function worded labelled opens parameters closes hbefore ih
  | giveBack worded => exact .giveBack worded
  | giveBackValue worded inner => exact .giveBackValue worded inner
  | importing worded labelled => exact .importing worded labelled
  | importingAs worded labelled knownAs named => exact .importingAs worded labelled knownAs named
  | braces opens hlead _ closes ih => exact .braces opens hlead ih closes
  | nil => exact .nil
  | @cons s ss ts between rest _ hbetween ends others ihf iho =>
    refine .cons ihf hbetween (stopsAt_of_separated ends (noElse_separators hbetween ?_)) iho
    intro t ht
    obtain ⟨hsep, -, helse⟩ := not_of_startsStmt (others.body_starts t ht)
    simp only [Token.isSeparator, Bool.or_eq_false_iff] at hsep
    exact ⟨helse, hsep.1⟩

end Grammar

end QuantumScript
