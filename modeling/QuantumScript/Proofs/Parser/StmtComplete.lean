import QuantumScript.Proofs.Parser.Clause

/-!
# Every spelled statement is read

A statement that is spelled is read wherever what follows does not go on with it
(`clauseReads_of_spellsClause`), and a spelled program is read whole (`parse_of_spellsProgram`).
-/

namespace QuantumScript.Grammar

variable {s : Stmt} {after tail : List Token}

/-- What may stand behind every statement: nothing, a separator or a closing brace, and no
`else`. -/
structure Ends (tail : List Token) : Prop where
  /-- The first token may stand there. -/
  head : ∀ t ∈ tail.head?, Parser.endsStatement t
  /-- No `else` follows. -/
  noElse : NoElse tail

/-- A closing brace may stand behind every statement. -/
theorem ends_closeBrace {t : Token} (h : t.kind = .symbol .closeBrace) : Ends (t :: tail) := by
  refine ⟨?_, ?_⟩
  · rintro _ ⟨⟩
    simp [Parser.endsStatement, Token.isSymbol, h]
  · simp [NoElse, Token.nextIs, Token.skipNewlines, Token.isNewline, Token.isKeyword, h]

/-- What ends a statement goes on with no expression. -/
theorem Ends.stops (h : Ends tail) (level : Level) : Stops level tail := by
  intro t ht link hl
  have he := h.head t ht
  simp only [Parser.endsStatement, Token.isSeparator, Token.isNewline, Token.isSymbol,
    Bool.or_eq_true, decide_eq_true_eq] at he
  rcases he with (hk | hk) | hk <;> rw [hk] at hl <;> cases hl

/-- Two stretches without `else` at their fronts have none together. -/
theorem NoElse.append (ha : NoElse after) (ht : NoElse tail) : NoElse (after ++ tail) := by
  unfold NoElse Token.nextIs Token.skipNewlines at *
  rw [List.dropWhile_append]
  cases hd : after.dropWhile Token.isNewline with
  | nil => simpa using ht
  | cons t us =>
    rw [hd] at ha
    simpa using ha

/-- A stretch without `else` at its front has none when its end is cut off. -/
theorem NoElse.of_append (h : NoElse (after ++ tail)) : NoElse after := by
  unfold NoElse Token.nextIs Token.skipNewlines at *
  rw [List.dropWhile_append] at h
  cases hd : after.dropWhile Token.isNewline with
  | nil => rfl
  | cons t us => simpa [hd] using h

/-- What does not go on with a statement still does not when an end of statements comes behind. -/
theorem stopsAt_append (h : s.StopsAt after) (he : Ends tail) : s.StopsAt (after ++ tail) := by
  have hhead {P : Token → Prop} (ha : ∀ t ∈ after.head?, P t) (ht : ∀ t ∈ tail.head?, P t) :
      ∀ t ∈ (after ++ tail).head?, P t := by
    cases after with
    | nil => exact ht
    | cons t us => exact ha
  unfold Stmt.StopsAt at *
  cases hs : s.ending with
  | value =>
    rw [hs] at h
    exact hhead h (he.stops _)
  | bareReturn =>
    rw [hs] at h
    exact hhead h he.head
  | bareImport =>
    rw [hs] at h
    refine hhead h fun t ht => ?_
    have hk := he.head t ht
    simp only [Parser.endsStatement, Token.isSeparator, Token.isNewline, Token.isSymbol,
      Bool.or_eq_true, decide_eq_true_eq] at hk
    simp only [Token.isKeyword, decide_eq_false_iff_not]
    rcases hk with (hk | hk) | hk <;> rw [hk] <;> simp
  | noElse =>
    rw [hs] at h
    exact NoElse.append h he.noElse
  | closed => trivial

/-- What does not go on with a statement still does not when its end is cut off. -/
theorem stopsAt_of_append (h : s.StopsAt (after ++ tail)) : s.StopsAt after := by
  have hhead {P : Token → Prop} (hp : ∀ t ∈ (after ++ tail).head?, P t) :
      ∀ t ∈ after.head?, P t := by
    cases after with
    | nil =>
      intro t ht
      cases ht
    | cons t us => exact hp
  unfold Stmt.StopsAt at *
  cases hs : s.ending with
  | value | bareReturn | bareImport =>
    rw [hs] at h
    exact hhead h
  | noElse =>
    rw [hs] at h
    exact NoElse.of_append h
  | closed => trivial

/-- Separators in front of a token that is none are skipped. -/
theorem skipSeparators_append {between rest : List Token} (hb : Separators between)
    (hr : ∀ t ∈ rest.head?, t.isSeparator = false) :
    Token.skipSeparators (between ++ rest) = rest := by
  unfold Token.skipSeparators
  rw [List.dropWhile_append_of_pos hb]
  cases rest with
  | nil => rfl
  | cons t us => rw [List.dropWhile_cons_of_neg (by simp [hr t rfl])]

end QuantumScript.Grammar

namespace QuantumScript.Parser

open Token Reading Grammar

variable {ts rest : List Token} {s : Stmt}

/-- Line ends before a block change nothing. -/
theorem yields_block_lineEnds {before : List Token} {t : Token} {found : List Stmt × Span}
    (hb : LineEnds before) (ht : t.isNewline = false) :
    Yields (block (before ++ t :: ts)) found rest ↔ Yields (block (t :: ts)) found rest := by
  have hskip : skipNewlines (t :: ts) = t :: ts := List.dropWhile_cons_of_neg (by simp [ht])
  rw [block, block, yields_pastNewlines, yields_pastNewlines, skipNewlines_append hb ht, hskip]

/-- What follows `else` is read like the statement that it is, line ends aside. -/
theorem yields_branch {before : List Token} {t : Token} (hb : LineEnds before)
    (ht : t.kind = .keyword .cond ∨ t.kind = .symbol .openBrace) :
    Yields (branch (before ++ t :: ts)) s rest ↔ Yields (statement (t :: ts)) s rest := by
  have hn : t.isNewline = false := by
    rcases ht with hk | hk <;> simp [isNewline, hk]
  rw [branch, statement]
  rcases ht with hk | hk
  · have hnext : nextIs (·.isKeyword .cond) (before ++ t :: ts) = true := by
      unfold nextIs
      rw [skipNewlines_append hb hn]
      simp [isKeyword, hk]
    rw [if_pos hnext, hk, yields_pastNewlines, yields_andThen, yields_behind]
    simp only [yields_takeKeyword, skipNewlines_append hb hn, exists_prop]
    constructor
    · rintro ⟨_, _, ⟨heq, -⟩, h⟩
      cases heq
      exact h
    · intro h
      exact ⟨t, ts, ⟨rfl, hk⟩, h⟩
  · have hnext : nextIs (·.isKeyword .cond) (before ++ t :: ts) = false := by
      unfold nextIs
      rw [skipNewlines_append hb hn]
      simp [isKeyword, hk]
    rw [if_neg (by rw [hnext]; exact Bool.false_ne_true), hk, yields_map, yields_map]
    simp only [yields_block_lineEnds hb hn]

/-- What the tokens of a clause are read as. -/
def ClauseReads : Clause → List Token → Prop
  | .stmt s, ts => ∀ rest, s.StopsAt rest → Yields (statement (ts ++ rest)) s rest
  | .block body start, ts => ∀ rest, Yields (block (ts ++ rest)) (body, start) rest
  | .body ss, ts =>
    (∀ closing rest, closing.kind = .symbol .closeBrace →
      Yields (blockBody (ts ++ closing :: rest)) ss rest) ∧
    statements ts = .ok ss

/-- A block is read behind line ends. -/
theorem ClauseReads.block_behind {body : List Stmt} {start : Span} {before : List Token}
    (hs : SpellsClause Stmt.StopsAt (.block body start) ts)
    (h : ClauseReads (.block body start) ts) (hb : LineEnds before) (rest : List Token) :
    Yields (block (before ++ (ts ++ rest))) (body, start) rest := by
  obtain ⟨t, us, rfl, hk⟩ := hs.opens
  rw [List.cons_append, yields_block_lineEnds hb (by simp [isNewline, hk])]
  exact h rest

/-- Nothing or something that starts a statement follows separators. -/
theorem SpellsClause.not_separator {ss : List Stmt}
    (h : SpellsClause Stmt.StopsAt (.body ss) ts) : ∀ t ∈ ts.head?, t.isSeparator = false :=
  fun t ht => (not_of_startsStmt (h.body_starts t ht)).1

/-- Separators before the statements of a block and its closing brace are skipped. -/
theorem skipSeparators_body {ss : List Stmt} {lead : List Token} {closing : Token}
    (hl : Separators lead) (h : SpellsClause Stmt.StopsAt (.body ss) ts)
    (hc : closing.kind = .symbol .closeBrace) :
    skipSeparators (lead ++ (ts ++ closing :: rest)) = ts ++ closing :: rest := by
  refine skipSeparators_append hl ?_
  cases ts with
  | nil =>
    rintro _ ⟨⟩
    simp [isSeparator, isNewline, isSymbol, hc]
  | cons t us =>
    rintro _ ⟨⟩
    exact SpellsClause.not_separator h t rfl

/-- A condition is read with its block, and with what follows `else` if that is read. -/
theorem yields_conditional {word : Token} {e : Expr} {yes : List Stmt} {start : Span}
    {cs before ys tail : List Token} {no : Option Stmt} (hk : word.kind = .keyword .cond)
    (hc : SpellsCondition e cs) (hb : LineEnds before)
    (hs : SpellsClause Stmt.StopsAt (.block yes start) ys)
    (hy : ClauseReads (.block yes start) ys) (hno : Yields (otherwise tail) no rest) :
    Yields (statement (word :: (cs ++ (before ++ (ys ++ tail)))))
      (.cond e (.block yes start) no word.span) rest := by
  rw [statement, hk, yields_behind, conditional, yields_andThen]
  refine ⟨e, before ++ (ys ++ tail), yields_condition.2 ⟨cs, hc, rfl⟩, ?_⟩
  rw [yields_andMaybe]
  refine ⟨(yes, start), tail, hy.block_behind hs hb tail, ?_⟩
  rw [yields_loose_map]
  exact ⟨no, hno, rfl⟩

/-- What follows `else` is read, behind line ends before and after the word. -/
theorem yields_otherwise {other : Token} {no : Stmt} {between after ns : List Token}
    (hbetween : LineEnds between) (othered : other.kind = .keyword .otherwise)
    (ha : LineEnds after) (hbranch : no.isBranch)
    (hs : SpellsClause Stmt.StopsAt (.stmt no) ns) (h : ClauseReads (.stmt no) ns)
    (hstop : no.StopsAt rest) :
    Yields (otherwise (between ++ other :: (after ++ (ns ++ rest)))) (some no) rest := by
  obtain ⟨t, us, rfl, -, hk⟩ := hs.starts
  have hn : other.isNewline = false := by simp [isNewline, othered]
  have hskip : skipNewlines (between ++ other :: (after ++ (t :: us ++ rest))) =
      other :: (after ++ (t :: us ++ rest)) := skipNewlines_append hbetween hn
  have hnext : nextIs (·.isKeyword .otherwise)
      (between ++ other :: (after ++ (t :: us ++ rest))) = true := by
    unfold nextIs
    rw [hskip]
    simp [isKeyword, othered]
  rw [otherwise, if_pos hnext, yields_loosen, yields_pastNewlines, yields_andThen]
  refine ⟨other, _, yields_takeKeyword.2 ⟨hskip, othered⟩, ?_⟩
  rw [yields_map]
  exact ⟨no, (yields_branch ha (hk hbranch)).2 (h rest hstop), rfl⟩

/-- A statement and the statements after it are read together, in a block and in a program. -/
theorem clauseReads_cons {ss : List Stmt} {between : List Token}
    (first : SpellsClause Stmt.StopsAt (.stmt s) ts) (hbetween : Separators between)
    (ends : s.StopsAt (between ++ rest)) (others : SpellsClause Stmt.StopsAt (.body ss) rest)
    (ihf : ClauseReads (.stmt s) ts) (iho : ClauseReads (.body ss) rest) :
    ClauseReads (.body (s :: ss)) (ts ++ (between ++ rest)) := by
  obtain ⟨t, us, rfl, ht, -⟩ := first.starts
  obtain ⟨-, hbrace, -⟩ := not_of_startsStmt ht
  refine ⟨fun closing tail hc => ?_, ?_⟩
  · -- The brace of the block ends the last statement.
    have hstop : s.StopsAt (between ++ (rest ++ closing :: tail)) := by
      rw [← List.append_assoc]
      exact stopsAt_append ends (ends_closeBrace hc)
    have hy := ihf _ hstop
    have hts : t :: us ++ (between ++ rest) ++ closing :: tail =
        t :: (us ++ (between ++ (rest ++ closing :: tail))) := by simp
    rw [List.cons_append] at hy
    rw [hts, blockBody, if_neg (by rw [hbrace]; exact Bool.false_ne_true), yields_andThen]
    refine ⟨s, _, hy, ?_⟩
    rw [yields_pastSeparators, yields_map]
    refine ⟨ss, ?_, rfl⟩
    rw [skipSeparators_body hbetween others hc]
    exact iho.1 closing tail hc
  · -- At the end of the tokens the last statement stops by itself.
    obtain ⟨hlt, hy⟩ := ihf _ ends
    have hy : statement (t :: (us ++ (between ++ rest))) = .ok ⟨s, between ++ rest, hlt⟩ := hy
    rw [List.cons_append, statements, hy]
    dsimp only
    rw [skipSeparators_append hbetween (SpellsClause.not_separator others), iho.2]
    rfl

/-- Every spelled clause is read. -/
theorem clauseReads_of_spellsClause {clause : Clause}
    (h : SpellsClause Stmt.StopsAt clause ts) : ClauseReads clause ts := by
  -- By induction over the spelling, one case for each form of statement, block and body.
  induction h with
  | @expr e ts inner =>
    intro rest hstop
    obtain ⟨t, us, rfl, ht⟩ := inner.starts
    have hy : Yields (expression (t :: us ++ rest)) e rest :=
      yields_expression.2 ⟨_, rfl, inner, hstop⟩
    rw [List.cons_append] at hy ⊢
    rw [statement.eq_def]
    dsimp only
    -- No statement of another form starts like an expression.
    split <;> first
      | (rw [yields_map]; exact ⟨e, hy, rfl⟩)
      | (rename_i hk; simp [startsExpr, startsPlain, hk] at ht)
  | @block body start ts inner ih =>
    intro rest _
    obtain ⟨t, us, rfl, hk⟩ := inner.opens
    have hy := ih rest
    rw [List.cons_append] at hy ⊢
    rw [statement, hk, yields_map]
    exact ⟨_, hy, rfl⟩
  | @cond word e yes start cs before ys worded test hb first ih =>
    intro rest hstop
    have hnext : nextIs (·.isKeyword .otherwise) rest = false := hstop
    have hno : Yields (otherwise rest) none rest := by
      rw [otherwise, if_neg (by rw [hnext]; exact Bool.false_ne_true)]
      simp
    have hts : word :: (cs ++ (before ++ ys)) ++ rest =
        word :: (cs ++ (before ++ (ys ++ rest))) := by simp
    rw [hts]
    exact yields_conditional worded test hb first ih hno
  | @condElse word other e yes start no cs before ys between after ns worded test hb first hbetween
      othered ha branch second ihf ihs =>
    intro rest hstop
    have hno := yields_otherwise hbetween othered ha branch second ihs hstop
    have hts : word :: (cs ++ (before ++ (ys ++ (between ++ other :: (after ++ ns))))) ++ rest =
        word :: (cs ++ (before ++ (ys ++ (between ++ other :: (after ++ (ns ++ rest)))))) := by
      simp
    rw [hts]
    exact yields_conditional worded test hb first ihf hno
  | @whileLoop word e body start cs before bs worded test hb inner ih =>
    intro rest _
    have hts : word :: (cs ++ (before ++ bs)) ++ rest =
        word :: (cs ++ (before ++ (bs ++ rest))) := by simp
    rw [hts, statement, worded, yields_behind, yields_andThen]
    refine ⟨e, before ++ (bs ++ rest), yields_condition.2 ⟨cs, test, rfl⟩, ?_⟩
    rw [yields_map]
    exact ⟨(body, start), ih.block_behind inner hb rest, rfl⟩
  | @forLoop word binder e body start cs before bs worded clause hb inner ih =>
    intro rest _
    have hts : word :: (cs ++ (before ++ bs)) ++ rest =
        word :: (cs ++ (before ++ (bs ++ rest))) := by simp
    rw [hts, statement, worded, yields_behind, yields_andThen]
    refine ⟨(binder, e), before ++ (bs ++ rest), yields_forClause.2 ⟨cs, clause, rfl⟩, ?_⟩
    rw [yields_map]
    exact ⟨(body, start), ih.block_behind inner hb rest, rfl⟩
  | @function word label opening closing name params body start ps before bs worded labelled opens
      parameters closes hb inner ih =>
    intro rest _
    have hts : word :: label :: opening :: (ps ++ closing :: (before ++ bs)) ++ rest =
        word :: label :: opening :: (ps ++ closing :: (before ++ (bs ++ rest))) := by simp
    rw [hts, statement, worded, yields_behind, yields_andThen]
    refine ⟨(name, label.span), _, yields_takeName.2 ⟨label, rfl, labelled, rfl⟩, ?_⟩
    rw [yields_andThen]
    refine ⟨opening, _, yields_takeSymbol.2 ⟨rfl, opens⟩, ?_⟩
    rw [yields_andThen]
    refine ⟨params, before ++ (bs ++ rest),
      yields_parameters.2 ⟨ps, closing, parameters, closes, rfl⟩, ?_⟩
    rw [yields_map]
    exact ⟨(body, start), ih.block_behind inner hb rest, rfl⟩
  | @giveBack word worded =>
    intro rest hstop
    rw [List.singleton_append, statement, worded, yields_andMaybe]
    refine ⟨(), rest, yields_token.2 ⟨rfl, rfl⟩, ?_⟩
    rw [yields_loose_map]
    exact ⟨none, yields_returnValue_none.2 ⟨rfl, hstop⟩, rfl⟩
  | @giveBackValue word e ts worded inner =>
    intro rest hstop
    rw [List.cons_append, statement, worded, yields_andMaybe]
    refine ⟨(), ts ++ rest, yields_token.2 ⟨rfl, rfl⟩, ?_⟩
    rw [yields_loose_map]
    exact ⟨some e, yields_returnValue_some.2 ⟨ts, rfl, inner, hstop⟩, rfl⟩
  | @importing word label library worded labelled =>
    intro rest hstop
    have hts : [word, label] ++ rest = word :: label :: rest := rfl
    rw [hts, statement, worded, yields_behind, yields_andMaybe]
    refine ⟨(library, label.span), rest, yields_takeName.2 ⟨label, rfl, labelled, rfl⟩, ?_⟩
    rw [yields_loose_map]
    exact ⟨none, yields_nickname_none.2 ⟨rfl, hstop⟩, rfl⟩
  | @importingAs word label known other library name worded labelled knownAs named =>
    intro rest _
    have hts : [word, label, known, other] ++ rest = word :: label :: known :: other :: rest := rfl
    rw [hts, statement, worded, yields_behind, yields_andMaybe]
    refine ⟨(library, label.span), known :: other :: rest,
      yields_takeName.2 ⟨label, rfl, labelled, rfl⟩, ?_⟩
    rw [yields_loose_map]
    exact ⟨some name, yields_nickname_some.2 ⟨known, other, rfl, knownAs, named⟩, rfl⟩
  | @braces opening closing ss lead ts opens hlead inner closes ih =>
    intro rest
    have hts : opening :: (lead ++ (ts ++ [closing])) ++ rest =
        opening :: (lead ++ (ts ++ closing :: rest)) := by simp
    have hskip : skipNewlines (opening :: (lead ++ (ts ++ closing :: rest))) =
        opening :: (lead ++ (ts ++ closing :: rest)) :=
      List.dropWhile_cons_of_neg (by simp [isNewline, opens])
    rw [hts, block, yields_pastNewlines, yields_andThen]
    refine ⟨opening, _, yields_takeSymbol.2 ⟨hskip, opens⟩, ?_⟩
    rw [yields_pastSeparators, yields_map]
    refine ⟨ss, ?_, rfl⟩
    rw [skipSeparators_body hlead inner closes]
    exact ih.1 closing rest closes
  | nil =>
    refine ⟨fun closing rest hc => ?_, by rw [statements]⟩
    rw [List.nil_append, blockBody, if_pos (by simp [isSymbol, hc])]
    simp
  | cons first hbetween ends others ihf iho =>
    exact clauseReads_cons first hbetween ends others ihf iho

/-- A program that is spelled is read whole. -/
theorem parse_of_spellsProgram {program : Program} {ending : Span}
    (h : SpellsProgram Stmt.StopsAt program ts) : parse ⟨ts, ending⟩ = .ok program := by
  obtain ⟨lead, rest, hlead, hs, rfl⟩ := h
  unfold parse
  dsimp only
  rw [skipSeparators_append hlead (SpellsClause.not_separator hs),
    (clauseReads_of_spellsClause hs).2]

end QuantumScript.Parser
