import QuantumScript.Proofs.Grammar.Render
import QuantumScript.Proofs.Grammar.Sentence
import QuantumScript.Proofs.Parser.StmtSound

/-!
# What is read is a sentence of the grammar

Tokens that are read as a program have a derivation by the productions of the grammar, with the tree
of that program (`Parser.sentence_of_parse`). The derivation is built from the spelling that the
readers are known to follow: an expression that is spelled at a level goes down the levels by
productions without an operator, and an operator or a suffix is added at the end of the repetition
that its left part was derived with.
-/

namespace QuantumScript

namespace Grammar

open Token (Kind)

variable {a b c e : Expr} {level : Level} {ks us vs : List Kind} {ts : List Token}

/-! ## Derivations of expressions -/

/-- What is derived at the next level is derived at a level. -/
theorem Derives.ofNext (hp : level ≠ .primary) (h : Derives (.expr level.next e) ks) :
    Derives (.expr level e) ks := by
  have hchain (hl : .disjunction ≤ level) (ht : level ≤ .product) : Derives (.expr level e) ks := by
    simpa using Derives.chain hl ht h .joinedNone
  cases level with
  | assignment => exact .noAssign h
  | disjunction | conjunction | equality | comparison | sum | product =>
    exact hchain (by decide) (by decide)
  | power => exact .noPower h
  | unary => exact .noUnary h
  | suffix => simpa using Derives.suffix h .suffixedNone
  | primary => exact absurd rfl hp

/-- What is derived at a level is derived at every looser one. -/
theorem Derives.loosen {tight : Level} (h : Derives (.expr tight e) ks) (hl : level ≤ tight) :
    Derives (.expr level e) ks :=
  Level.descend (P := fun level => Derives (.expr level e) ks) h
    (fun _ hp _ hnext => hnext.ofNext hp) hl

/-- Operators follow operators. -/
theorem Derives.joined_trans {form : Form} (h : Derives form us) :
    ∀ a b, form = .joined level a b → Derives (.joined level b c) vs →
      Derives (.joined level a c) (us ++ vs) := by
  induction h with
  | joinedNone =>
    rintro _ _ ⟨⟩ hmore
    exact hmore
  | @joinedMore level joint left right e ks us own operand _ _ ih =>
    rintro _ _ ⟨⟩ hmore
    rw [List.cons_append, List.append_assoc]
    exact .joinedMore own operand (ih _ _ rfl hmore)
  | _ => rintro _ _ ⟨⟩

/-- Suffixes follow suffixes. -/
theorem Derives.suffixed_trans {form : Form} (h : Derives form us) :
    ∀ a b, form = .suffixed a b → Derives (.suffixed b c) vs →
      Derives (.suffixed a c) (us ++ vs) := by
  induction h with
  | suffixedNone =>
    rintro _ _ ⟨⟩ hmore
    exact hmore
  | call other arguments _ _ ih =>
    rintro _ _ ⟨⟩ hmore
    simpa using Derives.call other arguments (ih _ _ rfl hmore)
  | methodCall arguments _ _ ih =>
    rintro _ _ ⟨⟩ hmore
    simpa using Derives.methodCall arguments (ih _ _ rfl hmore)
  | member _ ih =>
    rintro _ _ ⟨⟩ hmore
    simpa using Derives.member (ih _ _ rfl hmore)
  | index hbefore inner hafter _ _ ih =>
    rintro _ _ ⟨⟩ hmore
    simpa using Derives.index hbefore inner hafter (ih _ _ rfl hmore)
  | _ => rintro _ _ ⟨⟩

/-- An expression of a level whose operators associate to the left goes on with such operators. -/
theorem Derives.joined (loosest : .disjunction ≤ level) (tightest : level ≤ .product)
    (h : Derives (.expr level a) us) (more : Derives (.joined level a b) vs) :
    Derives (.expr level b) (us ++ vs) := by
  generalize hform : Form.expr level a = form at h
  cases h with
  | chain _ _ first rest =>
    cases hform
    rw [List.append_assoc]
    exact .chain loosest tightest first (rest.joined_trans _ _ rfl more)
  | _ =>
    cases hform <;> first | exact absurd loosest (by decide) | exact absurd tightest (by decide)

/-- An expression of the level of suffixes goes on with suffixes. -/
theorem Derives.suffixed (h : Derives (.expr .suffix a) us) (more : Derives (.suffixed a b) vs) :
    Derives (.expr .suffix b) (us ++ vs) := by
  cases h with
  | chain _ tightest => exact absurd tightest (by decide)
  | suffix first rest =>
    rw [List.append_assoc]
    exact .suffix first (rest.suffixed_trans _ _ rfl more)

/-! ## From the spelling to the derivation -/

/-- Line ends are line ends whatever their places. -/
theorem LineEnds.blank (h : LineEnds ts) : Blank (ts.map Token.kind) := by
  intro k hk
  obtain ⟨t, ht, rfl⟩ := List.mem_map.1 hk
  simpa [Token.isNewline] using h t ht

/-- Separators are separators whatever their places. -/
theorem Separators.seps (h : Separators ts) : Seps (ts.map Token.kind) := by
  intro k hk
  obtain ⟨t, ht, rfl⟩ := List.mem_map.1 hk
  simpa [Token.isSeparator, Token.isNewline, Token.isSymbol] using h t ht

/-- A token that makes an expression by itself is a primary expression. -/
theorem derives_of_atom? {t : Token} (h : t.atom? = some e) :
    Derives (.expr .primary e.bare) [t.kind] := by
  obtain ⟨kind, span, lexeme⟩ := t
  unfold Token.atom? at h
  dsimp only at h ⊢
  split at h <;> cases h
  · exact .number
  · exact .text
  · exact .name
  · exact .yes
  · exact .no
  · exact .null

/-- What spells a name is a target. -/
theorem Spells.target {phrase : Phrase} (h : Spells phrase ts) :
    ∀ level name span, phrase = .one level (.name name span) →
      Target name (ts.map Token.kind) := by
  induction h with
  | @atom _ t _ atom =>
    rintro _ name span ⟨⟩
    obtain ⟨kind, _, _⟩ := t
    unfold Token.atom? at atom
    dsimp only at atom
    split at atom <;> cases atom
    exact .plain
  | paren opens hbefore _ hafter closes ih =>
    rintro _ name span ⟨⟩
    simpa [opens, closes] using Target.paren hbefore.blank (ih _ name span rfl) hafter.blank
  | @call _ _ _ callee =>
    intro _ _ _ heq
    cases callee <;> cases heq
  | @joined _ _ joint =>
    intro _ _ _ heq
    cases joint <;> cases heq
  | _ => rintro _ _ _ ⟨⟩

/-- The form of what some tokens spell. -/
def Phrase.form : Phrase → Form
  | .one level e => .expr level e.bare
  | .many es => .list (bareExprs es)

/-- The arguments of a call after an expression. -/
theorem Derives.called {args : List Expr} (h : Derives (.expr .suffix e.bare) us)
    (arguments : Derives (.list args) vs) :
    Derives (.expr .suffix (e.bare.called args .anywhere))
      (us ++ .symbol .openParen :: (vs ++ [.symbol .closeParen])) := by
  refine h.suffixed ?_
  cases e with
  | member object name span => exact .methodCall arguments .suffixedNone
  | _ => exact .call rfl arguments .suffixedNone

/-- Two operands and the operator between them. -/
theorem Derives.binary {joint : Joint} (first : Derives (.expr joint.leftLevel a) us)
    (second : Derives (.expr joint.rightLevel b) vs) :
    Derives (.expr joint.level (joint.tree a b)) (us ++ joint.kind :: vs) := by
  by_cases hpow : joint = .binary .pow
  · subst hpow
    exact .power first second
  · rw [Joint.leftLevel, if_neg hpow] at first
    rw [Joint.rightLevel, if_neg hpow] at second
    have hloosest : .disjunction ≤ joint.level := by
      rcases joint with op | op <;> cases op <;> decide
    have htightest : joint.level ≤ .product := by
      rcases joint with op | op <;> cases op <;> first | decide | exact absurd rfl hpow
    simpa using first.joined hloosest htightest (.joinedMore rfl second .joinedNone)

/-- What is spelled has a derivation. -/
theorem Spells.derives {phrase : Phrase} (h : Spells phrase ts) :
    Derives phrase.form (ts.map Token.kind) := by
  induction h with
  | atom atom => exact (derives_of_atom? atom).loosen (Level.le_primary _)
  | paren opens hbefore _ hafter closes ih =>
    simp only [List.map_cons, List.map_append, List.map_nil, opens, closes]
    exact (Derives.paren hbefore.blank ih hafter.blank).loosen (Level.le_primary _)
  | array opens _ closes ih =>
    simp only [List.map_cons, List.map_append, List.map_nil, opens, closes]
    exact (Derives.array ih).loosen (Level.le_primary _)
  | call fits _ opens _ closes ihc iha =>
    simp only [List.map_cons, List.map_append, List.map_nil, opens, closes, Phrase.form,
      Expr.bare_called]
    exact (Derives.called ihc iha).loosen fits
  | member fits _ dotted labelled ih =>
    simp only [List.map_cons, List.map_append, List.map_nil, dotted, labelled]
    exact (Derives.suffixed ih (.member .suffixedNone)).loosen fits
  | index fits _ opens hbefore _ hafter closes iho ihp =>
    simp only [List.map_cons, List.map_append, List.map_nil, opens, closes]
    refine Derives.loosen ?_ fits
    exact Derives.suffixed iho (.index hbefore.blank ihp hafter.blank .suffixedNone)
  | unary fits signed _ ih =>
    rw [List.map_cons, signed]
    exact (Derives.unary ih).loosen fits
  | @joined _ _ joint left right _ _ fits _ signed _ ihl ihr =>
    have htree : (joint.join left right).bare = joint.tree left.bare right.bare := by
      cases joint <;> rfl
    rw [Phrase.form, htree, List.map_append, List.map_cons, signed]
    exact (Derives.binary ihl ihr).loosen fits
  | assign target signed _ _ ih =>
    rw [List.map_append, List.map_cons, signed]
    exact .assign (target.target _ _ _ rfl) ih
  | none blank => exact .listNone blank.blank
  | last hbefore _ hafter ih =>
    simp only [List.map_append]
    exact .listLast hbefore.blank ih hafter.blank
  | more hbefore _ hafter divided _ ihe ihr =>
    simp only [List.map_cons, List.map_append, divided]
    exact .listMore hbefore.blank ihe hafter.blank ihr

/-- The names of parameters have a derivation. -/
theorem SpellsNames.derives {names : List String} (h : SpellsNames names ts) :
    DerivesNames names (ts.map Token.kind) := by
  induction h with
  | none blank => exact .none blank.blank
  | last hbefore labelled hafter =>
    rw [List.map_append, List.map_cons, labelled]
    exact .last hbefore.blank hafter.blank
  | more hbefore labelled hafter divided _ ih =>
    simp only [List.map_cons, List.map_append, labelled, divided]
    exact .more hbefore.blank hafter.blank ih

/-- The form of what some tokens of a program spell. -/
def Clause.form : Clause → ClauseForm
  | .stmt s => .statement s.bare
  | .block ss _ => .block (bareStmts ss)
  | .body ss => .body (bareStmts ss)

/-- A block or a condition may follow `else`. -/
theorem DerivesClause.ofBranch {s : Stmt} (h : DerivesClause (.statement s) ks)
    (hs : s.isBranch) : DerivesClause (.branch s) ks := by
  cases h with
  | ofBlock inner => exact .branchBlock inner
  | ofCondition inner => exact .branchCondition inner
  | _ => cases hs

/-- A `return` without a value is followed by nothing or a separator. -/
theorem giveBack_ends {apart : Stmt → List Token → Prop} {s : Stmt} {ss : List Stmt}
    {between rest : List Token} (hstop : s.StopsAt (between ++ rest))
    (hrest : SpellsClause apart (.body ss) rest) (hs : s.bare = .giveBack none .anywhere) :
    between.map Token.kind ≠ [] ∨ rest.map Token.kind = [] := by
  cases between with
  | cons t between => exact .inl (by simp)
  | nil =>
    cases rest with
    | nil => exact .inr rfl
    | cons t rest =>
      -- What follows would start a statement, and so not end the `return`.
      obtain ⟨hsep, hbrace, -⟩ := not_of_startsStmt (hrest.body_starts t rfl)
      have hends : Parser.endsStatement t := by
        cases s with
        | giveBack value span =>
          cases value with
          | none => exact hstop t rfl
          | some value => cases hs
        | cond condition yes no span => cases no <;> cases hs
        | _ => cases hs
      simp [Parser.endsStatement, hsep, hbrace] at hends

/-- Clauses whose statements do not go on have a derivation. -/
theorem SpellsClause.derives {clause : Clause} (h : SpellsClause Stmt.StopsAt clause ts) :
    DerivesClause clause.form (ts.map Token.kind) := by
  induction h with
  | expr inner => exact .expr inner.derives
  | block _ ih => exact .ofBlock ih
  | cond worded test hbefore _ ih =>
    obtain ⟨opens, inner, closes⟩ := test
    simp only [List.map_cons, List.map_append, List.append_assoc, List.cons_append,
      List.nil_append, worded, opens, closes]
    exact .ofCondition (.cond inner.derives hbefore.blank ih)
  | condElse worded test hbefore _ hbetween othered hafter branch _ ihf ihs =>
    obtain ⟨opens, inner, closes⟩ := test
    simp only [List.map_cons, List.map_append, List.append_assoc, List.cons_append,
      List.nil_append, worded, opens, closes, othered]
    have hbranch := ihs.ofBranch (by rwa [Stmt.isBranch_bare])
    exact .ofCondition (.condElse inner.derives hbefore.blank ihf hbetween.blank hafter.blank
      hbranch)
  | whileLoop worded test hbefore _ ih =>
    obtain ⟨opens, inner, closes⟩ := test
    simp only [List.map_cons, List.map_append, List.append_assoc, List.cons_append,
      List.nil_append, worded, opens, closes]
    exact .whileLoop inner.derives hbefore.blank ih
  | forLoop worded clause hbefore _ ih =>
    obtain ⟨opens, labelled, inside, inner, closes⟩ := clause
    simp only [List.map_cons, List.map_append, List.append_assoc, List.cons_append,
      List.nil_append, worded, opens, labelled, inside, closes]
    exact .forLoop inner.derives hbefore.blank ih
  | function worded labelled opens parameters closes hbefore _ ih =>
    simp only [List.map_cons, List.map_append, worded, labelled, opens, closes]
    exact .function parameters.derives hbefore.blank ih
  | giveBack worded =>
    rw [List.map_singleton, worded]
    exact .giveBack
  | giveBackValue worded inner =>
    rw [List.map_cons, worded]
    exact .giveBackValue inner.derives
  | importing worded labelled =>
    simp only [List.map_cons, List.map_nil, worded, labelled]
    exact .importing
  | importingAs worded labelled knownAs named =>
    simp only [List.map_cons, List.map_nil, worded, labelled, knownAs, named]
    exact .importingAs
  | braces opens hlead _ closes ih =>
    simp only [List.map_cons, List.map_append, List.map_nil, opens, closes]
    exact .block hlead.seps ih
  | nil => exact .bodyNone
  | cons _ hbetween ends others ihf iho =>
    simp only [List.map_append]
    exact .bodyMore ihf hbetween.seps (giveBack_ends ends others) iho

end Grammar

namespace Parser

variable {tokens : Tokens} {program : Program}

/-- Tokens that are read as a program are a sentence of the grammar with its tree. -/
theorem sentence_of_parse (h : parse tokens = .ok program) :
    Grammar.Sentence program.bare (tokens.items.map Token.kind) := by
  obtain ⟨lead, rest, hlead, hbody, hitems⟩ := parse_eq_ok.1 h
  exact ⟨_, _, hlead.seps, hbody.derives, by rw [hitems, List.map_append]⟩

/-- The tokens of `(x) = a.f(y);`, with a line end inside the first parentheses. -/
def assignmentTokens : Tokens :=
  ⟨[.symbol .openParen, .newline, .name "x", .symbol .closeParen, .symbol .assign, .name "a",
    .symbol .dot, .name "f", .symbol .openParen, .name "y", .symbol .closeParen,
    .symbol .semicolon].map Grammar.word, .anywhere⟩

/-- The program of one assignment, of what a method returns to a name. -/
def assignmentProgram : Program :=
  [.expr (.assign "x" (.methodCall (.name "a" .anywhere) "f" [.name "y" .anywhere] .anywhere)
    .anywhere)]

/-- The tokens of an assignment are read and are a sentence with its tree. -/
theorem sentence_of_parse_assignment :
    parse assignmentTokens = .ok assignmentProgram ∧
      Grammar.Sentence assignmentProgram.bare (assignmentTokens.items.map Token.kind) := by
  have hparse : parse assignmentTokens = .ok assignmentProgram := by cbv
  exact ⟨hparse, sentence_of_parse hparse⟩

end Parser

end QuantumScript
