import QuantumScript.Program.Parser.Stmt
import QuantumScript.Proofs.Parser.ExprAlike

/-!
# Programs are read from kinds alone

The readers of statements, too, look at the kinds of tokens and at nothing else: from tokens of the
same kinds, `parse` makes programs that differ in places only, or fails at the same token for the
same reason (`parse_sameKinds`).
-/

namespace QuantumScript

/-- Two statements differ in places only. -/
def Stmt.Same (s t : Stmt) : Prop :=
  s.bare = t.bare

/-- Two programs differ in places only. -/
def Program.Same (p q : Program) : Prop :=
  p.bare = q.bare

namespace Program.Same

variable {p q r p' q' : Program}

/-- Which of two programs comes first does not matter. -/
theorem symm (h : p.Same q) : q.Same p := Eq.symm h

/-- Programs that differ from a third in places only do so from each other. -/
theorem trans (h : p.Same q) (h' : q.Same r) : p.Same r := Eq.trans h h'

/-- Where one of two programs has no statements, the other has none. -/
theorem eq_nil (h : Program.Same [] q) : q = [] := by
  cases q with
  | nil => rfl
  | cons s q => cases h

/-- Programs may be put one after the other. -/
theorem append (h : p.Same q) (h' : p'.Same q') : Program.Same (p ++ p') (q ++ q') := by
  unfold Program.Same Program.bare at *
  rw [bareStmts_eq_map, bareStmts_eq_map] at *
  rw [List.map_append, List.map_append, h, h']

end Program.Same

namespace Parser

open Token Reading

variable {ts us : List Token}

/-! ## The parts of statements -/

/-- Conditions are read alike. -/
theorem condition_alike (h : SameKinds ts us) (word : Keyword) :
    Alike Expr.Same (condition word ts) (condition word us) := by
  refine (alike_takeSymbol _ _ h).andThen fun _ _ rest rest' _ _ _ hs => ?_
  refine (exprAlike hs).expression.andThen fun e f rest rest' _ _ he hs => ?_
  exact (alike_takeSymbol _ _ hs).map fun _ _ _ => he

/-- The clauses after `for` are read alike. -/
theorem forClause_alike (h : SameKinds ts us) :
    Alike (fun x y => x.1 = y.1 ∧ x.2.Same y.2) (forClause ts) (forClause us) := by
  refine (alike_takeSymbol _ _ h).andThen fun _ _ rest rest' _ _ _ hs => ?_
  refine (alike_takeName _ hs).andThen fun x y rest rest' _ _ hx hs => ?_
  refine (alike_takeKeyword _ _ hs).andThen fun _ _ rest rest' _ _ _ hs => ?_
  refine (exprAlike hs).expression.andThen fun e f rest rest' _ _ he hs => ?_
  exact (alike_takeSymbol _ _ hs).map fun _ _ _ => ⟨hx, he⟩

/-- What follows a parameter is read alike, if the parameters after it are. -/
theorem moreParameters_alike (h : SameKinds ts us) (name : String)
    (ih : ∀ ts' us' : List Token, ts'.length < ts.length → SameKinds ts' us' →
      Alike Eq (someParameters ts') (someParameters us')) :
    Alike Eq (moreParameters name ts) (moreParameters name us) := by
  cases ts with
  | nil =>
    rw [h.eq_nil, moreParameters]
    exact .error .nil
  | cons t ts =>
    obtain ⟨u, us, rfl, hk, hs⟩ := h.exists_cons
    rw [moreParameters, moreParameters, isSymbol_congr hk .comma, isSymbol_congr hk .closeParen]
    split
    · refine Alike.behind ((ih ts us (Nat.lt_succ_self _) hs).map fun x y hx => ?_)
      rw [hx]
    · split
      · exact alike_token rfl hs
      · exact .error (.cons hk hs)

/-- Parameters are read alike, at least one. -/
theorem someParameters_alike (count : Nat) : ∀ ts us : List Token, ts.length = count →
    SameKinds ts us → Alike Eq (someParameters ts) (someParameters us) := by
  -- The induction is on the number of tokens: the names after a comma are fewer tokens.
  induction count using Nat.strongRecOn with
  | ind count hrec =>
    intro ts us hn h
    have hle := length_skipNewlines_le ts
    rw [someParameters, someParameters]
    refine Alike.widen ?_ _ _
    refine (alike_takeName _ h.skipNewlines).andThen fun x y rest rest' hlt _ hx hs => ?_
    have hle' := length_skipNewlines_le rest
    refine Alike.widen ?_ _ _
    dsimp only
    rw [hx]
    exact moreParameters_alike hs.skipNewlines y.1 fun ts' us' hlt' hs' =>
      hrec ts'.length (by omega) ts' us' rfl hs'

/-- The parameters of functions are read alike. -/
theorem parameters_alike (h : SameKinds ts us) : Alike Eq (parameters ts) (parameters us) := by
  rw [parameters, parameters, h.nextIs fun _ _ hk => isSymbol_congr hk .closeParen]
  split
  · refine Alike.widen ?_ _ _
    exact (alike_takeSymbol _ _ h.skipNewlines).map fun _ _ _ => rfl
  · exact someParameters_alike _ ts us rfl h

/-- What is returned is read alike. -/
theorem returnValue_alike (h : SameKinds ts us) :
    Alike (fun x y => x.map Expr.bare = y.map Expr.bare) (returnValue ts) (returnValue us) := by
  cases ts with
  | nil =>
    rw [h.eq_nil, returnValue]
    exact alike_nothing rfl .nil
  | cons t ts =>
    obtain ⟨u, us, rfl, hk, hs⟩ := h.exists_cons
    have hends : endsStatement t = endsStatement u := by
      rw [endsStatement, endsStatement, isSeparator_congr hk, isSymbol_congr hk]
    rw [returnValue, returnValue, hends]
    split
    · exact alike_nothing rfl (.cons hk hs)
    · exact Alike.loosen ((exprAlike h).expression.map fun x y hx => congrArg some hx)

/-- The other names of imports are read alike. -/
theorem nickname_alike (h : SameKinds ts us) : Alike Eq (nickname ts) (nickname us) := by
  cases ts with
  | nil =>
    rw [h.eq_nil, nickname]
    exact alike_nothing rfl .nil
  | cons t ts =>
    obtain ⟨u, us, rfl, hk, hs⟩ := h.exists_cons
    rw [nickname, nickname, isKeyword_congr hk]
    split
    · exact Alike.looseBehind ((alike_takeName _ hs).map fun x y hx => congrArg some hx)
    · exact alike_nothing rfl (.cons hk hs)

/-! ## Statements -/

/-- Blocks differ in places only if their statements do. -/
theorem same_block {p q : Program} (h : p.Same q) (span span' : Span) :
    (Stmt.block p span).Same (.block q span') := by
  unfold Stmt.Same Program.Same Program.bare at *
  rw [Stmt.bare, Stmt.bare, h]

/-- What the readers of statements make of two lists of tokens is alike. -/
structure StmtAlike (ts us : List Token) : Prop where
  /-- Statements are read alike. -/
  statement : Alike Stmt.Same (Parser.statement ts) (Parser.statement us)
  /-- What follows `if` is read alike. -/
  conditional : ∀ span span',
    Alike Stmt.Same (Parser.conditional span ts) (Parser.conditional span' us)
  /-- What follows `else` is read alike. -/
  branch : Alike Stmt.Same (Parser.branch ts) (Parser.branch us)
  /-- An `else` that may be missing is read alike. -/
  otherwise : Alike (fun x y => x.map Stmt.bare = y.map Stmt.bare) (Parser.otherwise ts)
    (Parser.otherwise us)
  /-- Blocks are read alike. -/
  block : Alike (fun x y => Program.Same x.1 y.1) (Parser.block ts) (Parser.block us)
  /-- The inside of blocks is read alike. -/
  blockBody : Alike Program.Same (Parser.blockBody ts) (Parser.blockBody us)

/-- The readers of statements make alike things of fewer tokens than so many. -/
def StmtAlikeBelow (count : Nat) : Prop :=
  ∀ ts us : List Token, ts.length < count → SameKinds ts us → StmtAlike ts us

/-- Blocks are read alike. -/
theorem block_alike (ih : StmtAlikeBelow ts.length) (h : SameKinds ts us) :
    Alike (fun x y => Program.Same x.1 y.1) (block ts) (block us) := by
  have hle := length_skipNewlines_le ts
  rw [block, block]
  refine Alike.widen ?_ _ _
  refine (alike_takeSymbol _ _ h.skipNewlines).andThen fun _ _ rest rest' hlt _ _ hs => ?_
  have hle' := length_skipSeparators_le rest
  refine Alike.widen ?_ _ _
  exact (ih _ _ (by omega) hs.skipSeparators).blockBody.map fun _ _ hx => hx

/-- What follows `else` is read alike. -/
theorem branch_alike (ih : StmtAlikeBelow ts.length) (h : SameKinds ts us) :
    Alike Stmt.Same (branch ts) (branch us) := by
  have hle := length_skipNewlines_le ts
  rw [branch, branch, h.nextIs fun _ _ hk => isKeyword_congr hk .cond]
  split
  · refine Alike.widen ?_ _ _
    refine (alike_takeKeyword _ _ h.skipNewlines).andThen fun t u rest rest' hlt _ _ hs => ?_
    exact (ih _ _ (by omega) hs).conditional t.span u.span
  · exact (block_alike ih h).map fun x y hx => same_block hx x.2 y.2

/-- Whether there is an `else`, and what follows it, is read alike. -/
theorem otherwise_alike (ih : StmtAlikeBelow ts.length) (h : SameKinds ts us) :
    Alike (fun x y => x.map Stmt.bare = y.map Stmt.bare) (otherwise ts) (otherwise us) := by
  have hle := length_skipNewlines_le ts
  rw [otherwise, otherwise, h.nextIs fun _ _ hk => isKeyword_congr hk .otherwise]
  split
  · refine Alike.loosen (Alike.widen ?_ _ _)
    refine (alike_takeKeyword _ _ h.skipNewlines).andThen fun _ _ rest rest' hlt _ _ hs => ?_
    exact (ih _ _ (by omega) hs).branch.map fun x y hx => congrArg some hx
  · exact alike_nothing rfl h

/-- Conditions differ in places only if their parts do. -/
theorem same_cond {e f : Expr} {s t : Stmt} {no no' : Option Stmt} {span span' : Span}
    (he : e.Same f) (hs : s.Same t) (hn : no.map Stmt.bare = no'.map Stmt.bare) :
    (Stmt.cond e s no span).Same (.cond f t no' span') := by
  unfold Expr.Same Stmt.Same at *
  cases no with
  | none =>
    cases no' with
    | none => rw [Stmt.bare, Stmt.bare, he, hs]
    | some no' => cases hn
  | some no =>
    cases no' with
    | none => cases hn
    | some no' => rw [Stmt.bare, Stmt.bare, he, hs, Option.some.inj hn]

/-- What follows `if` is read alike. -/
theorem conditional_alike (ih : StmtAlikeBelow ts.length) (h : SameKinds ts us)
    (span span' : Span) :
    Alike Stmt.Same (conditional span ts) (conditional span' us) := by
  rw [conditional, conditional]
  refine (condition_alike h _).andThen fun e f rest rest' hlt _ he hs => ?_
  refine (ih _ _ hlt hs).block.andMaybe fun x y rest rest' hlt' _ hx hs => ?_
  refine (ih _ _ (by omega) hs).otherwise.looseMap fun no no' hn => ?_
  exact same_cond he (same_block hx x.2 y.2) hn

/-- Statements are read alike. -/
theorem statement_alike (ih : StmtAlikeBelow ts.length) (h : SameKinds ts us) :
    Alike Stmt.Same (statement ts) (statement us) := by
  cases ts with
  | nil =>
    rw [h.eq_nil, statement]
    exact .error .nil
  | cons t ts =>
    obtain ⟨u, us, rfl, hk, hs⟩ := h.exists_cons
    rw [statement.eq_def, statement.eq_def (u :: us)]
    dsimp only
    rw [← hk]
    -- One case for each word that starts a statement, then blocks, then expressions.
    split
    · refine Alike.behind ((alike_takeName _ hs).andThen fun x y rest rest' hlt _ hx hs => ?_)
      refine (alike_takeSymbol _ _ hs).andThen fun _ _ rest rest' hlt' _ _ hs => ?_
      refine (parameters_alike hs).andThen fun params params' rest rest' hlt'' _ hp hs => ?_
      have hlt : rest.length < (t :: ts).length := by
        rw [List.length_cons]
        omega
      refine (ih _ _ hlt hs).block.map fun body body' hb => ?_
      unfold Stmt.Same Program.Same Program.bare at *
      rw [Stmt.bare, Stmt.bare, hx, hp, hb]
    · exact Alike.behind ((ih ts us (Nat.lt_succ_self _) hs).conditional t.span u.span)
    · refine Alike.behind ((condition_alike hs _).andThen fun e f rest rest' hlt _ he hs => ?_)
      refine (ih _ _ (Nat.lt_succ_of_lt hlt) hs).block.map fun body body' hb => ?_
      have hb : bareStmts body.1 = bareStmts body'.1 := hb
      unfold Stmt.Same Expr.Same at *
      simp only [Stmt.bare, he, hb]
    · refine Alike.behind ((forClause_alike hs).andThen fun x y rest rest' hlt _ hx hs => ?_)
      refine (ih _ _ (Nat.lt_succ_of_lt hlt) hs).block.map fun body body' hb => ?_
      have hb : bareStmts body.1 = bareStmts body'.1 := hb
      obtain ⟨hname, hitems⟩ := hx
      unfold Stmt.Same Expr.Same at *
      simp only [Stmt.bare, hname, hitems, hb]
    · refine (alike_token (rfl : () = ()) hs).andMaybe fun _ _ rest rest' _ _ _ hs => ?_
      refine (returnValue_alike hs).looseMap fun x y hx => ?_
      unfold Stmt.Same
      cases x with
      | none =>
        cases y with
        | none => rw [Stmt.bare, Stmt.bare]
        | some f => cases hx
      | some e =>
        cases y with
        | none => cases hx
        | some f => rw [Stmt.bare, Stmt.bare, Option.some.inj hx]
    · refine Alike.behind ((alike_takeName _ hs).andMaybe fun x y rest rest' _ _ hx hs => ?_)
      refine (nickname_alike hs).looseMap fun known known' hn => ?_
      unfold Stmt.Same
      rw [Stmt.bare, Stmt.bare, hx, hn]
    · exact (block_alike ih h).map fun x y hx => same_block hx x.2 y.2
    · refine (exprAlike h).expression.map fun e f he => ?_
      unfold Stmt.Same Expr.Same at *
      rw [Stmt.bare, Stmt.bare, he]

/-- Programs differ in places only if their first statements and the others do. -/
theorem same_cons {s t : Stmt} {p q : Program} (h : s.Same t) (hs : p.Same q) :
    Program.Same (s :: p) (t :: q) := by
  unfold Program.Same Program.bare Stmt.Same at *
  rw [bareStmts, bareStmts, h, hs]

/-- The insides of blocks are read alike, if their first statements are. -/
theorem blockBody_alike (ih : StmtAlikeBelow ts.length) (h : SameKinds ts us)
    (hfirst : Alike Stmt.Same (statement ts) (statement us)) :
    Alike Program.Same (blockBody ts) (blockBody us) := by
  cases ts with
  | nil =>
    rw [h.eq_nil, blockBody]
    exact .error .nil
  | cons t ts =>
    obtain ⟨u, us, rfl, hk, hs⟩ := h.exists_cons
    rw [blockBody, blockBody, isSymbol_congr hk]
    split
    · exact alike_token rfl hs
    · refine hfirst.andThen fun s s' rest rest' hlt _ hx hs => ?_
      have hle := length_skipSeparators_le rest
      refine Alike.widen ?_ _ _
      exact (ih _ _ (by omega) hs.skipSeparators).blockBody.map fun _ _ ho => same_cons hx ho

/-- The readers of statements make alike things of tokens of the same kinds. -/
theorem stmtAlike (h : SameKinds ts us) : StmtAlike ts us := by
  induction hn : ts.length using Nat.strongRecOn generalizing ts us with
  | ind n hrec =>
    subst hn
    have ih : StmtAlikeBelow ts.length := fun ts' us' hlt h' => hrec _ hlt h' rfl
    have hstatement := statement_alike ih h
    -- A block begins with a statement on the same tokens, so that one comes first.
    exact {
      statement := hstatement
      conditional := conditional_alike ih h
      branch := branch_alike ih h
      otherwise := otherwise_alike ih h
      block := block_alike ih h
      blockBody := blockBody_alike ih h hstatement }

/-- Statements up to the end are read alike: as programs that differ in places only, or not at all,
for the same reason and with tokens of the same kinds left. -/
theorem statements_alike (h : SameKinds ts us) :
    (∃ p q, statements ts = .ok p ∧ statements us = .ok q ∧ p.Same q) ∨
      ∃ reason rest rest', statements ts = .error ⟨reason, rest⟩ ∧
        statements us = .error ⟨reason, rest'⟩ ∧ SameKinds rest rest' := by
  -- The induction is on the number of tokens: what stands behind a statement is fewer tokens.
  induction hn : ts.length using Nat.strongRecOn generalizing ts us with
  | ind n hrec =>
    subst hn
    cases ts with
    | nil =>
      rw [h.eq_nil, statements]
      exact .inl ⟨[], [], rfl, rfl, rfl⟩
    | cons t ts =>
      obtain ⟨u, us, rfl, hk, -⟩ := h.exists_cons
      have hfirst := (stmtAlike h).statement
      rw [statements, statements]
      generalize statement (t :: ts) = first at hfirst
      generalize statement (u :: us) = first' at hfirst
      cases hfirst with
      | error left => exact .inr ⟨_, _, _, rfl, rfl, left⟩
      | @ok s s' rest rest' hlt hlt' hx left =>
        have hle := length_skipSeparators_le rest
        rcases hrec _ (by omega) left.skipSeparators rfl with
          ⟨p, q, hp, hq, hs⟩ | ⟨reason, tail, tail', hp, hq, hs⟩
        · dsimp only
          rw [hp, hq]
          exact .inl ⟨s :: p, s' :: q, rfl, rfl, same_cons hx hs⟩
        · dsimp only
          rw [hp, hq]
          exact .inr ⟨reason, tail, tail', rfl, rfl, hs⟩

end Parser

/-- From tokens of the same kinds programs are read that differ in places only, or none is read, for
the same cause. -/
theorem parse_sameKinds {tokens tokens' : Tokens}
    (h : Token.SameKinds tokens.items tokens'.items) :
    (∃ p q, parse tokens = .ok p ∧ parse tokens' = .ok q ∧ p.Same q) ∨
      ∃ fault fault', parse tokens = .error fault ∧ parse tokens' = .error fault' ∧
        fault.cause = fault'.cause := by
  unfold parse
  rcases Parser.statements_alike h.skipSeparators with
    ⟨p, q, hp, hq, hs⟩ | ⟨reason, rest, rest', hp, hq, hs⟩
  · rw [hp, hq]
    exact .inl ⟨p, q, rfl, rfl, hs⟩
  · rw [hp, hq]
    refine .inr ⟨_, _, rfl, rfl, ?_⟩
    rw [Stuck.cause_fault, Stuck.cause_fault, Stuck.cause_sameKinds hs]

end QuantumScript
