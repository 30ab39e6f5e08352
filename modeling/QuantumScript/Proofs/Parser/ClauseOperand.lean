import QuantumScript.Proofs.Parser.Operand
import QuantumScript.Proofs.Parser.StmtPoints

/-!
# The left operand of an `or` in a program

The tokens of a program before an `or` end with those of its left operand, and the reader of the
program is stuck wherever that of an expression is from the operand on (`SpellsProgram.operands`).
The steps are those for expressions, with one lemma on stuck readers for each place of an expression
in a statement, of a block in a statement and of a statement among others.
-/

namespace QuantumScript.Parser

open Token Reading Grammar

variable {e : Expr} {s : Stmt} {ts mid rest before : List Token} {stuck : Stuck}

/-- A reader of what a clause is read as is stuck: for statements one behind the other those of a
block and of a program. -/
def ClauseSticksAs : Clause → List Token → Stuck → Prop
  | .stmt _, ts, stuck => Sticks (statement ts) stuck
  | .block _ _, ts, stuck => Sticks (block ts) stuck
  | .body _, ts, stuck => Sticks (blockBody ts) stuck ∧ statements ts = .error stuck

/-! ## The places of an expression in a statement -/

/-- The reader of a statement is stuck where that of an expression is, if one comes first. -/
theorem sticks_expr {t : Token} (ht : t.startsExpr) (h : Sticks (expression (t :: ts)) stuck) :
    Sticks (statement (t :: ts)) stuck := by
  rw [statement.eq_def]
  dsimp only
  -- No statement of another form starts like an expression.
  split <;> first
    | (rw [sticks_map]; exact h)
    | (rename_i hk; simp [startsExpr, startsPlain, hk] at ht)

/-- The reader of the condition after a keyword is stuck where that of the expression is. -/
theorem sticks_condition {word : Keyword} {opening : Token}
    (hk : opening.kind = .symbol .openParen) (h : Sticks (expression ts) stuck) :
    Sticks (condition word (opening :: ts)) stuck := by
  rw [condition, sticks_andThen]
  refine .inr ⟨opening, ts, yields_takeSymbol.2 ⟨rfl, hk⟩, ?_⟩
  rw [sticks_andThen]
  exact .inl h

/-- The reader of the clause after `for` is stuck where that of the items is. -/
theorem sticks_forClause {opening label word : Token} {binder : String}
    (hopening : opening.kind = .symbol .openParen) (hlabel : label.kind = .name binder)
    (hword : word.kind = .keyword .inside) (h : Sticks (expression ts) stuck) :
    Sticks (forClause (opening :: label :: word :: ts)) stuck := by
  rw [forClause, sticks_andThen]
  refine .inr ⟨opening, _, yields_takeSymbol.2 ⟨rfl, hopening⟩, ?_⟩
  rw [sticks_andThen]
  refine .inr ⟨(binder, label.span), _, yields_takeName.2 ⟨label, rfl, hlabel, rfl⟩, ?_⟩
  rw [sticks_andThen]
  refine .inr ⟨word, ts, yields_takeKeyword.2 ⟨rfl, hword⟩, ?_⟩
  rw [sticks_andThen]
  exact .inl h

/-- The reader of a `return` is stuck where that of the value is. -/
theorem sticks_value {word t : Token} (hk : word.kind = .keyword .giveBack) (ht : t.startsExpr)
    (h : Sticks (expression (t :: ts)) stuck) : Sticks (statement (word :: t :: ts)) stuck := by
  have hends : endsStatement t = false := by
    have hstarts : t.startsStmt := by simp [startsStmt, ht]
    obtain ⟨hsep, hclose, -⟩ := not_of_startsStmt hstarts
    simp [endsStatement, hsep, hclose]
  rw [statement, hk, sticks_andMaybe]
  refine .inr ⟨(), t :: ts, yields_token.2 ⟨rfl, rfl⟩, ?_⟩
  rw [sticks_loose_map, returnValue, if_neg (by simp [hends])]
  simpa using h

/-! ## The places of a block in a statement -/

/-- The reader of a block behind line ends is stuck where that of the block is. -/
theorem sticks_block_lineEnds {t : Token} (hb : LineEnds before) (ht : t.isNewline = false)
    (h : Sticks (block (t :: ts)) stuck) : Sticks (block (before ++ t :: ts)) stuck := by
  have hskip : skipNewlines (t :: ts) = t :: ts := List.dropWhile_cons_of_neg (by simp [ht])
  rw [block, sticks_pastNewlines] at h ⊢
  rw [hskip] at h
  rw [skipNewlines_append hb ht]
  exact h

/-- What begins like a block begins with a brace. -/
theorem exists_brace {apart : Stmt → List Token → Prop} {body : List Stmt} {start : Span}
    (hs : SpellsClause apart (.block body start) ts) (hmid : mid.head? = ts.head?) :
    ∃ t us, mid = t :: us ∧ t.kind = .symbol .openBrace := by
  obtain ⟨t, us, rfl, hk⟩ := hs.opens
  obtain ⟨vs, rfl⟩ := List.head?_eq_some_iff.1 hmid
  exact ⟨t, vs, rfl, hk⟩

/-- The reader of a block behind line ends is stuck where that of what begins like it is. -/
theorem sticks_block_behind {apart : Stmt → List Token → Prop} {body : List Stmt} {start : Span}
    (hs : SpellsClause apart (.block body start) ts) (hb : LineEnds before)
    (hmid : mid.head? = ts.head?) (h : Sticks (block mid) stuck) :
    Sticks (block (before ++ mid)) stuck := by
  obtain ⟨t, us, rfl, hk⟩ := exists_brace hs hmid
  exact sticks_block_lineEnds hb (by simp [isNewline, hk]) h

/-- The reader of a block is stuck where that of its statements is. -/
theorem sticks_braces {opening : Token} {lead : List Token}
    (hk : opening.kind = .symbol .openBrace) (hl : Separators lead)
    (hts : ∀ t ∈ ts.head?, t.isSeparator = false) (h : Sticks (blockBody ts) stuck) :
    Sticks (block (opening :: (lead ++ ts))) stuck := by
  have hskip : skipNewlines (opening :: (lead ++ ts)) = opening :: (lead ++ ts) :=
    List.dropWhile_cons_of_neg (by simp [isNewline, hk])
  rw [block, sticks_pastNewlines, sticks_andThen, hskip]
  refine .inr ⟨opening, _, yields_takeSymbol.2 ⟨rfl, hk⟩, ?_⟩
  rw [sticks_pastSeparators, sticks_map, skipSeparators_append hl hts]
  exact h

/-- The reader of a statement that is a block is stuck where that of the block is. -/
theorem sticks_blockStatement {opening : Token} (hk : opening.kind = .symbol .openBrace)
    (h : Sticks (block (opening :: ts)) stuck) : Sticks (statement (opening :: ts)) stuck := by
  rw [statement, hk, sticks_map]
  exact h

/-- Where the reader of a loop with a condition is stuck. -/
theorem sticks_whileLoop {word : Token} (hk : word.kind = .keyword .whileLoop) :
    Sticks (statement (word :: ts)) stuck ↔ Sticks (condition .whileLoop ts) stuck ∨
      ∃ test us, Yields (condition .whileLoop ts) test us ∧ Sticks (block us) stuck := by
  rw [statement, hk, sticks_behind, sticks_andThen]
  simp only [sticks_map, exists_prop]

/-- Where the reader of a loop through the items of an array is stuck. -/
theorem sticks_forLoop {word : Token} (hk : word.kind = .keyword .forLoop) :
    Sticks (statement (word :: ts)) stuck ↔ Sticks (forClause ts) stuck ∨
      ∃ clause us, Yields (forClause ts) clause us ∧ Sticks (block us) stuck := by
  rw [statement, hk, sticks_behind, sticks_andThen]
  simp only [sticks_map, exists_prop]

/-- Where the reader of a condition is stuck. -/
theorem sticks_cond {word : Token} (hk : word.kind = .keyword .cond) :
    Sticks (statement (word :: ts)) stuck ↔ Sticks (condition .cond ts) stuck ∨
      ∃ test us, Yields (condition .cond ts) test us ∧ (Sticks (block us) stuck ∨
        ∃ body vs, Yields (block us) body vs ∧ Sticks (otherwise vs) stuck) := by
  rw [statement, hk, sticks_behind, conditional, sticks_andThen]
  simp only [sticks_andMaybe, sticks_loose_map, exists_prop]

/-- The reader of a condition is stuck where that of its first block is. -/
theorem sticks_cond_block {word : Token} {apart : Stmt → List Token → Prop} {yes : List Stmt}
    {start : Span} {cs : List Token} (hk : word.kind = .keyword .cond) (test : SpellsCondition e cs)
    (hb : LineEnds before) (first : SpellsClause apart (.block yes start) ts)
    (hmid : mid.head? = ts.head?) (h : Sticks (block mid) stuck) :
    Sticks (statement (word :: (cs ++ (before ++ mid)))) stuck :=
  (sticks_cond hk).2 (.inr ⟨e, _, yields_condition.2 ⟨cs, test, rfl⟩,
    .inl (sticks_block_behind first hb hmid h)⟩)

/-- The reader of a function is stuck where that of its block is. -/
theorem sticks_function {word label opening closing : Token} {name : String}
    {params : List String} {ps : List Token} (hword : word.kind = .keyword .function)
    (hlabel : label.kind = .name name) (hopening : opening.kind = .symbol .openParen)
    (hs : SpellsNames params ps) (hclosing : closing.kind = .symbol .closeParen)
    (h : Sticks (block rest) stuck) :
    Sticks (statement (word :: label :: opening :: (ps ++ closing :: rest))) stuck := by
  rw [statement, hword, sticks_behind, sticks_andThen]
  refine .inr ⟨(name, label.span), _, yields_takeName.2 ⟨label, rfl, hlabel, rfl⟩, ?_⟩
  rw [sticks_andThen]
  refine .inr ⟨opening, _, yields_takeSymbol.2 ⟨rfl, hopening⟩, ?_⟩
  rw [sticks_andThen]
  refine .inr ⟨params, rest, yields_parameters.2 ⟨ps, closing, hs, hclosing, rfl⟩, ?_⟩
  rw [sticks_map]
  exact h

/-- The reader of what follows `else` is stuck where that of the statement that it is would be. -/
theorem sticks_branch {t : Token} (hb : LineEnds before)
    (ht : t.kind = .keyword .cond ∨ t.kind = .symbol .openBrace)
    (h : Sticks (statement (t :: ts)) stuck) : Sticks (branch (before ++ t :: ts)) stuck := by
  have hn : t.isNewline = false := by
    rcases ht with hk | hk <;> simp [isNewline, hk]
  rw [branch]
  rw [statement] at h
  rcases ht with hk | hk
  · have hnext : nextIs (·.isKeyword .cond) (before ++ t :: ts) = true := by
      unfold nextIs
      rw [skipNewlines_append hb hn]
      simp [isKeyword, hk]
    rw [hk, sticks_behind] at h
    rw [if_pos hnext, sticks_pastNewlines, sticks_andThen, skipNewlines_append hb hn]
    exact .inr ⟨t, ts, yields_takeKeyword.2 ⟨rfl, hk⟩, h⟩
  · have hnext : nextIs (·.isKeyword .cond) (before ++ t :: ts) = false := by
      unfold nextIs
      rw [skipNewlines_append hb hn]
      simp [isKeyword, hk]
    rw [hk, sticks_map] at h
    rw [if_neg (by rw [hnext]; exact Bool.false_ne_true), sticks_map]
    exact sticks_block_lineEnds hb hn h

/-- The reader of an `else` is stuck where that of its branch is. -/
theorem sticks_otherwise {other : Token} (hb : LineEnds before)
    (hk : other.kind = .keyword .otherwise) (h : Sticks (branch ts) stuck) :
    Sticks (otherwise (before ++ other :: ts)) stuck := by
  have hn : other.isNewline = false := by simp [isNewline, hk]
  have hnext : nextIs (·.isKeyword .otherwise) (before ++ other :: ts) = true := by
    unfold nextIs
    rw [skipNewlines_append hb hn]
    simp [isKeyword, hk]
  rw [otherwise, if_pos hnext, sticks_loosen, sticks_pastNewlines, sticks_andThen,
    skipNewlines_append hb hn]
  refine .inr ⟨other, ts, yields_takeKeyword.2 ⟨rfl, hk⟩, ?_⟩
  rw [sticks_map]
  exact h

/-! ## The places of a statement among others -/

/-- The readers of statements are stuck where that of the first one is. -/
theorem clauseSticksAs_first {ss : List Stmt} {t : Token} (ht : t.startsStmt)
    (h : Sticks (statement (t :: ts)) stuck) : ClauseSticksAs (.body ss) (t :: ts) stuck := by
  obtain ⟨-, hbrace, -⟩ := not_of_startsStmt ht
  refine ⟨?_, statements_eq_error.2 (.inl h)⟩
  rw [blockBody, if_neg (by rw [hbrace]; exact Bool.false_ne_true), sticks_andThen]
  exact .inl h

/-- The readers of statements are stuck where those of the statements behind the first one are. -/
theorem clauseSticksAs_others {ss others : List Stmt} {between : List Token}
    (hs : SpellsClause Stmt.StopsAt (.stmt s) ts) (hb : Separators between)
    (hstop : s.StopsAt (between ++ mid)) (hmid : ∀ t ∈ mid.head?, t.isSeparator = false)
    (h : ClauseSticksAs (.body others) mid stuck) :
    ClauseSticksAs (.body ss) (ts ++ (between ++ mid)) stuck := by
  have hy : Yields (statement (ts ++ (between ++ mid))) s (between ++ mid) :=
    yields_statement.2 ⟨ts, rfl, hs, hstop⟩
  have hskip : skipSeparators (between ++ mid) = mid := skipSeparators_append hb hmid
  obtain ⟨t, us, rfl, ht, -⟩ := hs.starts
  obtain ⟨-, hbrace, -⟩ := not_of_startsStmt ht
  rw [List.cons_append] at hy ⊢
  refine ⟨?_, statements_eq_error.2 (.inr ⟨s, _, hy, by rw [hskip]; exact h.2⟩)⟩
  rw [blockBody, if_neg (by rw [hbrace]; exact Bool.false_ne_true), sticks_andThen]
  refine .inr ⟨s, _, hy, ?_⟩
  rw [sticks_pastSeparators, sticks_map, hskip]
  exact h.1

end QuantumScript.Parser

namespace QuantumScript.Grammar

open QuantumScript.Parser Token Reading

variable {e : Expr} {ts : List Token}

/-- The tokens before each `or` in a condition after a keyword end with its left operand. -/
theorem SpellsCondition.operands (h : SpellsCondition e ts) :
    Operands e.parts (fun us stuck => ∀ word, Sticks (condition word us) stuck) [] ts := by
  obtain ⟨opens, inner, closes⟩ := h
  refine .cons (by simp [opens]) (.append (inner.operands.lift ?_ ?_) (.single (by simp [closes])))
  · exact fun _ _ hp => hp
  · exact fun mid stuck _ hs word => sticks_condition opens hs

/-- The tokens before each `or` in the clause after `for` end with its left operand. -/
theorem SpellsForClause.operands {binder : String} (h : SpellsForClause binder e ts) :
    Operands e.parts (fun us => Sticks (forClause us)) [] ts := by
  obtain ⟨opens, labelled, worded, inner, closes⟩ := h
  refine .cons (by simp [opens]) (.cons (by simp [labelled]) (.cons (by simp [worded])
    (.append (inner.operands.lift ?_ ?_) (.single (by simp [closes])))))
  · exact fun _ _ hp => hp
  · exact fun mid stuck _ hs => sticks_forClause opens labelled worded hs

/-- The tokens before each `or` of a clause end with its left operand, from which on an expression
is read. -/
theorem SpellsClause.operands {clause : Clause} (h : SpellsClause Stmt.StopsAt clause ts) :
    Operands clause.parts (ClauseSticksAs clause) [] ts := by
  -- By induction over the spelling, with the parts of the statements as for expressions.
  induction h with
  | @expr e ts inner =>
    refine inner.operands.lift (fun _ _ hp => hp) fun mid stuck hmid hs => ?_
    obtain ⟨t, us, rfl, ht, -⟩ := exists_starts inner hmid
    exact sticks_expr ht hs
  | @block body start ts inner ih =>
    refine ih.lift (fun _ _ hp => hp) fun mid stuck hmid hs => ?_
    obtain ⟨t, us, rfl, hk⟩ := exists_brace inner hmid
    exact sticks_blockStatement hk hs
  | @cond word e yes start cs before ys worded test hb first ih =>
    refine .cons (by simp [worded]) (.append (test.operands.lift ?_ ?_)
      (.append (.none (hb.kind_ne (by decide))) (ih.lift ?_ ?_)))
    · exact fun _ _ hp => List.mem_append_left _ hp
    · exact fun mid stuck _ hs => (sticks_cond worded).2 (.inl (hs .cond))
    · exact fun _ _ hp => List.mem_append_right _ hp
    · intro mid stuck hmid hs
      have hblock := sticks_cond_block worded test hb first hmid hs
      rw [List.nil_append, List.append_assoc, List.append_assoc]
      exact hblock
  | @condElse word other e yes start no cs before ys between after ns worded test hb first hbetween
      othered ha branch second ihf ihs =>
    refine .cons (by simp [worded]) (.append (test.operands.lift ?_ ?_)
      (.append (.none (hb.kind_ne (by decide))) (.append (ihf.lift ?_ ?_)
        (.append (.none (hbetween.kind_ne (by decide))) (.cons (by simp [othered])
          (.append (.none (ha.kind_ne (by decide))) (ihs.lift ?_ ?_)))))))
    · exact fun _ _ hp => List.mem_append_left _ hp
    · exact fun mid stuck _ hs => (sticks_cond worded).2 (.inl (hs .cond))
    · exact fun _ _ hp => List.mem_append_right _ (List.mem_append_left _ hp)
    · intro mid stuck hmid hs
      have hblock := sticks_cond_block worded test hb first hmid hs
      rw [List.nil_append, List.append_assoc, List.append_assoc]
      exact hblock
    · exact fun _ _ hp => List.mem_append_right _ (List.mem_append_right _ hp)
    · intro mid stuck hmid hs
      obtain ⟨t, us, rfl, -, hk⟩ := second.starts
      obtain ⟨vs, rfl⟩ := List.head?_eq_some_iff.1 hmid
      have hno := sticks_otherwise hbetween othered (sticks_branch ha (hk branch) hs)
      have hblock := (clauseReads_of_spellsClause first).block_behind first hb
      simp only [List.nil_append, List.append_assoc, List.singleton_append]
      exact (sticks_cond worded).2 (.inr ⟨e, _, yields_condition.2 ⟨cs, test, rfl⟩,
        .inr ⟨_, _, hblock _, hno⟩⟩)
  | @whileLoop word e body start cs before bs worded test hb inner ih =>
    refine .cons (by simp [worded]) (.append (test.operands.lift ?_ ?_)
      (.append (.none (hb.kind_ne (by decide))) (ih.lift ?_ ?_)))
    · exact fun _ _ hp => List.mem_append_left _ hp
    · exact fun mid stuck _ hs => (sticks_whileLoop worded).2 (.inl (hs .whileLoop))
    · exact fun _ _ hp => List.mem_append_right _ hp
    · intro mid stuck hmid hs
      have hblock := sticks_block_behind inner hb hmid hs
      rw [List.nil_append, List.append_assoc, List.append_assoc]
      exact (sticks_whileLoop worded).2
        (.inr ⟨e, _, yields_condition.2 ⟨cs, test, rfl⟩, hblock⟩)
  | @forLoop word binder e body start cs before bs worded clause hb inner ih =>
    refine .cons (by simp [worded]) (.append (clause.operands.lift ?_ ?_)
      (.append (.none (hb.kind_ne (by decide))) (ih.lift ?_ ?_)))
    · exact fun _ _ hp => List.mem_append_left _ hp
    · exact fun mid stuck _ hs => (sticks_forLoop worded).2 (.inl hs)
    · exact fun _ _ hp => List.mem_append_right _ hp
    · intro mid stuck hmid hs
      have hblock := sticks_block_behind inner hb hmid hs
      rw [List.nil_append, List.append_assoc, List.append_assoc]
      exact (sticks_forLoop worded).2
        (.inr ⟨(binder, e), _, yields_forClause.2 ⟨cs, clause, rfl⟩, hblock⟩)
  | @function word label opening closing name params body start ps before bs worded labelled opens
      parameters closes hb inner ih =>
    refine .cons (by simp [worded]) (.cons (by simp [labelled]) (.cons (by simp [opens])
      (.append (.none (parameters.kind_ne (by decide) (by decide) (by simp)))
        (.cons (by simp [closes]) (.append (.none (hb.kind_ne (by decide))) (ih.lift ?_ ?_))))))
    · exact fun _ _ hp => hp
    · intro mid stuck hmid hs
      have hblock := sticks_block_behind inner hb hmid hs
      simp only [List.nil_append, List.append_assoc, List.cons_append]
      exact sticks_function worded labelled opens parameters closes hblock
  | giveBack worded => exact .single (by simp [worded])
  | @giveBackValue word e ts worded inner =>
    refine .cons (by simp [worded]) (inner.operands.lift (fun _ _ hp => hp) ?_)
    intro mid stuck hmid hs
    obtain ⟨t, us, rfl, ht, -⟩ := exists_starts inner hmid
    exact sticks_value worded ht hs
  | importing worded labelled =>
    exact .cons (by simp [worded]) (.single (by simp [labelled]))
  | importingAs worded labelled knownAs named =>
    exact .cons (by simp [worded]) (.cons (by simp [labelled]) (.cons (by simp [knownAs])
      (.single (by simp [named]))))
  | @braces opening closing ss lead ts opens hlead inner closes ih =>
    refine .cons (by simp [opens]) (.append (.none (hlead.kind_ne (by decide) (by decide)))
      (.append (ih.lift (fun _ _ hp => hp) ?_) (.single (by simp [closes]))))
    intro mid stuck hmid hs
    have hsep : ∀ t ∈ mid.head?, t.isSeparator = false := by
      rw [hmid]
      exact SpellsClause.not_separator inner
    exact sticks_braces opens hlead hsep hs.1
  | nil => exact .none (by simp)
  | @cons s ss ts between rest first hbetween ends others ihf iho =>
    refine .append (ihf.lift ?_ ?_) (.append (.none (hbetween.kind_ne (by decide) (by decide)))
      (iho.lift ?_ ?_))
    · exact fun _ _ hp => List.mem_append_left _ hp
    · intro mid stuck hmid hs
      obtain ⟨t, us, rfl, ht, -⟩ := first.starts
      obtain ⟨vs, rfl⟩ := List.head?_eq_some_iff.1 hmid
      exact clauseSticksAs_first ht hs
    · exact fun _ _ hp => List.mem_append_right _ hp
    · intro mid stuck hmid hs
      have hsep : ∀ t ∈ mid.head?, t.isSeparator = false := by
        rw [hmid]
        exact SpellsClause.not_separator others
      have hline : ∀ t ∈ rest.head?, t.isNewline = false := fun t ht =>
        (Bool.or_eq_false_iff.1 (SpellsClause.not_separator others t ht)).1
      rw [List.nil_append, List.append_assoc]
      exact clauseSticksAs_others first hbetween (stopsAt_congr hline hmid ends) hsep hs

/-- The tokens before each `or` of a program end with its left operand, from which on an expression
is read. -/
theorem SpellsProgram.operands {program : Program}
    (h : SpellsProgram Stmt.StopsAt program ts) :
    Operands (partsAmong program)
      (fun us stuck => statements (skipSeparators us) = .error stuck) [] ts := by
  obtain ⟨lead, rest, hlead, hbody, rfl⟩ := h
  refine .append (.none (hlead.kind_ne (by decide) (by decide)))
    (hbody.operands.lift (fun _ _ hp => hp) ?_)
  intro mid stuck hmid hs
  have hsep : ∀ t ∈ mid.head?, t.isSeparator = false := by
    rw [hmid]
    exact SpellsClause.not_separator hbody
  rw [List.nil_append, skipSeparators_append hlead hsep]
  exact hs.2

end QuantumScript.Grammar
