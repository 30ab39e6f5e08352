import QuantumScript.Proofs.Parser.StmtComplete

/-!
# Every statement that is read is spelled

What the reader of statements takes from the front of the tokens spells the statement that it
yields, and what it leaves does not go on with it (`stmtSound`). Together with
`parse_of_spellsProgram` this says exactly when some tokens are read as a program (`parse_eq_ok`).

The proof is an induction on the number of tokens, as for expressions. A statement may end in
another one only behind `else`, so conditions are the one form whose end is not known from the
statement alone.
-/

namespace QuantumScript.Parser

open Token Reading Grammar

variable {ts rest : List Token} {s : Stmt}

/-- What the reader of statements takes spells what it yields, and what it leaves does not go on. -/
def StmtSound (ts : List Token) : Prop :=
  ∀ s rest, Yields (statement ts) s rest →
    ∃ used, ts = used ++ rest ∧ SpellsClause Stmt.StopsAt (.stmt s) used ∧ s.StopsAt rest

/-- The reader of statements is sound on fewer than so many tokens. -/
def StmtSoundBelow (count : Nat) : Prop :=
  ∀ ts : List Token, ts.length < count → StmtSound ts

/-- A reader that is sound below a count is so below a smaller one. -/
theorem StmtSoundBelow.mono {a b : Nat} (h : StmtSoundBelow b) (hab : a ≤ b) : StmtSoundBelow a :=
  fun ts hlt => h ts (Nat.lt_of_lt_of_le hlt hab)

/-- The separators in front of some tokens. -/
theorem exists_separators (ts : List Token) :
    ∃ lead, Separators lead ∧ ts = lead ++ skipSeparators ts :=
  ⟨ts.takeWhile isSeparator, List.all_eq_true.1 List.all_takeWhile,
    List.takeWhile_append_dropWhile.symm⟩

/-! ## Blocks -/

/-- What is read up to a closing brace. -/
theorem spells_of_yields_blockBody {ss : List Stmt} (ih : StmtSoundBelow (ts.length + 1))
    (h : Yields (blockBody ts) ss rest) :
    ∃ used closing, SpellsClause Stmt.StopsAt (.body ss) used ∧
      closing.kind = .symbol .closeBrace ∧ ts = used ++ closing :: rest := by
  -- The induction is on the number of tokens: what stands behind a statement is fewer tokens.
  induction hn : ts.length using Nat.strongRecOn generalizing ts ss with
  | ind n hrec =>
    subst hn
    cases ts with
    | nil =>
      rw [blockBody] at h
      exact absurd h yields_error
    | cons t after =>
      rw [blockBody] at h
      split at h
      · rename_i hclose
        rw [yields_token] at h
        obtain ⟨rfl, rfl⟩ := h
        exact ⟨[], t, .nil, by simpa [isSymbol] using hclose, rfl⟩
      · rw [yields_andThen] at h
        obtain ⟨s, mid, hs, h⟩ := h
        rw [yields_pastSeparators, yields_map] at h
        obtain ⟨others, ho, rfl⟩ := h
        obtain ⟨first, hfirst, hspells, hstop⟩ := ih _ (Nat.lt_succ_self _) s mid hs
        obtain ⟨between, hb, hbetween⟩ := exists_separators mid
        have hlt : (skipSeparators mid).length < (t :: after).length :=
          Nat.lt_of_le_of_lt (length_skipSeparators_le mid) hs.shorter
        obtain ⟨used, closing, hused, hc, hrest⟩ := hrec _ hlt (ih.mono (by omega)) ho rfl
        rw [hrest, ← List.append_assoc] at hbetween
        rw [hbetween] at hstop hfirst
        -- The statement stops before all that follows, so also before the rest of the block.
        refine ⟨first ++ (between ++ used), closing, ?_, hc, by simpa using hfirst⟩
        exact .cons hspells hb (stopsAt_of_append hstop) hused

/-- What is read as a block. -/
theorem spells_of_yields_block {body : List Stmt} {start : Span} (ih : StmtSoundBelow ts.length)
    (h : Yields (block ts) (body, start) rest) :
    ∃ before used, LineEnds before ∧ SpellsClause Stmt.StopsAt (.block body start) used ∧
      ts = before ++ (used ++ rest) := by
  rw [block, yields_pastNewlines, yields_andThen] at h
  obtain ⟨opening, mid, hopen, h⟩ := h
  rw [yields_pastSeparators, yields_map] at h
  obtain ⟨ss, hs, heq⟩ := h
  cases heq
  have hle := length_skipNewlines_le ts
  have hle' := length_skipSeparators_le mid
  have hlt := hopen.shorter
  obtain ⟨hopen, hk⟩ := yields_takeSymbol.1 hopen
  obtain ⟨used, closing, hused, hc, hrest⟩ := spells_of_yields_blockBody (ih.mono (by omega)) hs
  obtain ⟨before, hb, hbefore⟩ := exists_lineEnds ts
  obtain ⟨lead, hl, hlead⟩ := exists_separators mid
  refine ⟨before, _, hb, .braces hk hl hused hc, ?_⟩
  rw [hbefore, hopen, hlead, hrest]
  simp

/-! ## Conditions -/

/-- What is read behind `if`. -/
theorem spells_of_yields_conditional {word : Token} (hk : word.kind = .keyword .cond)
    (ih : StmtSoundBelow (ts.length + 1)) (h : Yields (conditional word.span ts) s rest) :
    ∃ used, ts = used ++ rest ∧ SpellsClause Stmt.StopsAt (.stmt s) (word :: used) ∧
      s.StopsAt rest ∧ s.isBranch := by
  -- The induction is on the number of tokens: behind `else` stand fewer tokens.
  induction hn : ts.length using Nat.strongRecOn generalizing ts s word with
  | ind n hrec =>
    subst hn
    rw [conditional, yields_andThen] at h
    obtain ⟨e, mid, hc, h⟩ := h
    rw [yields_andMaybe] at h
    obtain ⟨⟨yes, start⟩, tail, hy, h⟩ := h
    rw [yields_loose_map] at h
    obtain ⟨no, hno, rfl⟩ := h
    have hmid := hc.shorter
    have htail := hy.shorter
    obtain ⟨cs, hcs, rfl⟩ := yields_condition.1 hc
    obtain ⟨before, ys, hb, hys, rfl⟩ := spells_of_yields_block (ih.mono (by omega)) hy
    rw [otherwise] at hno
    split at hno
    -- With `else` the condition stops where the second branch does, without where no `else` comes.
    · rw [yields_loosen, yields_pastNewlines, yields_andThen] at hno
      obtain ⟨other, past, ho, hno⟩ := hno
      rw [yields_map] at hno
      obtain ⟨other', hbranch, rfl⟩ := hno
      have hpast : past.length < tail.length :=
        Nat.lt_of_lt_of_le ho.shorter (length_skipNewlines_le tail)
      obtain ⟨ho, hother⟩ := yields_takeKeyword.1 ho
      obtain ⟨between, hbt, hbetween⟩ := exists_lineEnds tail
      rw [ho] at hbetween
      -- What stands behind `else` spells a branch, whichever of the two it is.
      have hsecond : ∃ after ns, LineEnds after ∧ SpellsClause Stmt.StopsAt (.stmt other') ns ∧
          other'.StopsAt rest ∧ other'.isBranch ∧ past = after ++ (ns ++ rest) := by
        rw [branch] at hbranch
        split at hbranch
        · rw [yields_pastNewlines, yields_andThen] at hbranch
          obtain ⟨again, inner, ha, hbranch⟩ := hbranch
          have hinner : inner.length < past.length :=
            Nat.lt_of_lt_of_le ha.shorter (length_skipNewlines_le past)
          obtain ⟨ha, hagain⟩ := yields_takeKeyword.1 ha
          obtain ⟨used, rfl, hspells, hstop, hisbranch⟩ :=
            hrec _ (by omega) hagain (ih.mono (by omega)) hbranch rfl
          obtain ⟨after, haf, hafter⟩ := exists_lineEnds past
          exact ⟨after, again :: used, haf, hspells, hstop, hisbranch, by rw [hafter, ha]; simp⟩
        · rw [yields_map] at hbranch
          obtain ⟨⟨body, start'⟩, hbody, rfl⟩ := hbranch
          obtain ⟨after, ns, haf, hns, rfl⟩ :=
            spells_of_yields_block (ih.mono (by omega)) hbody
          exact ⟨after, ns, haf, .block hns, trivial, rfl, rfl⟩
      obtain ⟨after, ns, haf, hns, hstop, hisbranch, rfl⟩ := hsecond
      refine ⟨cs ++ (before ++ (ys ++ (between ++ other :: (after ++ ns)))), ?_,
        .condElse hk hcs hb hys hbt hother haf hisbranch hns, hstop, rfl⟩
      rw [hbetween]
      simp
    · rename_i helse
      rw [yields_nothing] at hno
      obtain ⟨rfl, rfl⟩ := hno
      exact ⟨cs ++ (before ++ ys), by simp, .cond hk hcs hb hys, Bool.eq_false_iff.2 helse, rfl⟩

/-! ## Statements -/

/-- The reader of statements is sound if it is so on fewer tokens. -/
theorem stmtSound_of_below (ih : StmtSoundBelow ts.length) : StmtSound ts := by
  intro s rest h
  cases ts with
  | nil =>
    rw [statement] at h
    exact absurd h yields_error
  | cons t after =>
    rw [statement.eq_def] at h
    dsimp only at h
    -- One case for each word that starts a statement, then blocks, then expressions.
    split at h
    · rename_i hk
      rw [yields_behind, yields_andThen] at h
      obtain ⟨⟨name, span⟩, mid, hname, h⟩ := h
      rw [yields_andThen] at h
      obtain ⟨opening, mid₁, hopen, h⟩ := h
      rw [yields_andThen] at h
      obtain ⟨params, mid₂, hparams, h⟩ := h
      rw [yields_map] at h
      obtain ⟨⟨body, start⟩, hbody, rfl⟩ := h
      have hle : mid₂.length ≤ (t :: after).length := by
        have hlt := hname.shorter
        have hlt₁ := hopen.shorter
        have hlt₂ := hparams.shorter
        rw [List.length_cons]
        omega
      obtain ⟨label, rfl, hlabel, -⟩ := yields_takeName.1 hname
      obtain ⟨rfl, hopens⟩ := yields_takeSymbol.1 hopen
      obtain ⟨ps, closing, hps, hcloses, rfl⟩ := yields_parameters.1 hparams
      obtain ⟨before, bs, hb, hbs, rfl⟩ := spells_of_yields_block (ih.mono hle) hbody
      exact ⟨_, by simp, .function hk hlabel hopens hps hcloses hb hbs, trivial⟩
    · rename_i hk
      rw [yields_behind] at h
      obtain ⟨used, rfl, hs, hstop, -⟩ := spells_of_yields_conditional hk ih h
      exact ⟨t :: used, rfl, hs, hstop⟩
    · rename_i hk
      rw [yields_behind, yields_andThen] at h
      obtain ⟨e, mid, hc, h⟩ := h
      rw [yields_map] at h
      obtain ⟨⟨body, start⟩, hbody, rfl⟩ := h
      have hle : mid.length ≤ (t :: after).length := Nat.le_succ_of_le (Nat.le_of_lt hc.shorter)
      obtain ⟨cs, hcs, rfl⟩ := yields_condition.1 hc
      obtain ⟨before, bs, hb, hbs, rfl⟩ := spells_of_yields_block (ih.mono hle) hbody
      exact ⟨_, by simp, .whileLoop hk hcs hb hbs, trivial⟩
    · rename_i hk
      rw [yields_behind, yields_andThen] at h
      obtain ⟨⟨binder, e⟩, mid, hc, h⟩ := h
      rw [yields_map] at h
      obtain ⟨⟨body, start⟩, hbody, rfl⟩ := h
      have hle : mid.length ≤ (t :: after).length := Nat.le_succ_of_le (Nat.le_of_lt hc.shorter)
      obtain ⟨cs, hcs, rfl⟩ := yields_forClause.1 hc
      obtain ⟨before, bs, hb, hbs, rfl⟩ := spells_of_yields_block (ih.mono hle) hbody
      exact ⟨_, by simp, .forLoop hk hcs hb hbs, trivial⟩
    · rename_i hk
      rw [yields_andMaybe] at h
      obtain ⟨_, mid, hmid, h⟩ := h
      obtain ⟨-, rfl⟩ := yields_token.1 hmid
      rw [yields_loose_map] at h
      obtain ⟨value, hv, rfl⟩ := h
      cases value with
      | none =>
        obtain ⟨rfl, hstop⟩ := yields_returnValue_none.1 hv
        exact ⟨[t], rfl, .giveBack hk, hstop⟩
      | some e =>
        obtain ⟨used, rfl, hs, hstop⟩ := yields_returnValue_some.1 hv
        exact ⟨t :: used, rfl, .giveBackValue hk hs, hstop⟩
    · rename_i hk
      rw [yields_behind, yields_andMaybe] at h
      obtain ⟨⟨library, span⟩, mid, hname, h⟩ := h
      obtain ⟨label, rfl, hlabel, -⟩ := yields_takeName.1 hname
      rw [yields_loose_map] at h
      obtain ⟨known, hknown, rfl⟩ := h
      cases known with
      | none =>
        obtain ⟨rfl, hstop⟩ := yields_nickname_none.1 hknown
        exact ⟨[t, label], rfl, .importing hk hlabel, hstop⟩
      | some name =>
        obtain ⟨known, other, rfl, hknown, hname⟩ := yields_nickname_some.1 hknown
        exact ⟨[t, label, known, other], rfl, .importingAs hk hlabel hknown hname, trivial⟩
    · rename_i hk
      rw [yields_map] at h
      obtain ⟨⟨body, start⟩, hbody, rfl⟩ := h
      obtain ⟨before, used, hb, hused, hts⟩ := spells_of_yields_block ih hbody
      -- The first token is a brace, so no line end stands before the block.
      cases before with
      | nil => exact ⟨used, hts, .block hused, trivial⟩
      | cons u us =>
        rw [List.cons_append] at hts
        cases hts
        have := hb t (by simp)
        simp [isNewline, hk] at this
    · rw [yields_map] at h
      obtain ⟨e, he, rfl⟩ := h
      obtain ⟨used, hused, hs, hstop⟩ := yields_expression.1 he
      exact ⟨used, hused, .expr hs, hstop⟩

/-- The reader of statements is sound. -/
theorem stmtSound (ts : List Token) : StmtSound ts := by
  induction hn : ts.length using Nat.strongRecOn generalizing ts with
  | ind n hrec =>
    subst hn
    exact stmtSound_of_below fun us hlt => hrec _ hlt us rfl

/-- A statement is read exactly when the tokens taken spell it and those left do not go on. -/
theorem yields_statement :
    Yields (statement ts) s rest ↔
      ∃ used, ts = used ++ rest ∧ SpellsClause Stmt.StopsAt (.stmt s) used ∧ s.StopsAt rest := by
  constructor
  · intro h
    exact stmtSound ts s rest h
  · rintro ⟨used, rfl, hs, hstop⟩
    exact clauseReads_of_spellsClause hs rest hstop

/-- What is read to the end of the tokens spells the statements that are read. -/
theorem spells_of_statements {program : Program} (h : statements ts = .ok program) :
    SpellsClause Stmt.StopsAt (.body program) ts := by
  -- The induction is on the number of tokens: what stands behind a statement is fewer tokens.
  induction hn : ts.length using Nat.strongRecOn generalizing ts program with
  | ind n hrec =>
    subst hn
    cases ts with
    | nil =>
      rw [statements] at h
      cases h
      exact .nil
    | cons t after =>
      rw [statements] at h
      split at h
      · cases h
      · rename_i s mid hlt hs
        obtain ⟨used, hused, hspells, hstop⟩ := yields_statement.1 ⟨hlt, hs⟩
        cases ho : statements (skipSeparators mid) with
        | error stuck =>
          rw [ho] at h
          cases h
        | ok others =>
          rw [ho] at h
          cases h
          obtain ⟨between, hb, hbetween⟩ := exists_separators mid
          have hlt' : (skipSeparators mid).length < (t :: after).length :=
            Nat.lt_of_le_of_lt (length_skipSeparators_le mid) hlt
          rw [hbetween] at hused hstop
          rw [hused]
          exact .cons hspells hb hstop (hrec _ hlt' ho rfl)

/-- Tokens are read as a program exactly when they spell it. -/
theorem parse_eq_ok {tokens : Tokens} {program : Program} :
    parse tokens = .ok program ↔ SpellsProgram Stmt.StopsAt program tokens.items := by
  constructor
  · intro h
    unfold parse at h
    split at h
    · rename_i found hs
      cases h
      obtain ⟨lead, hl, hlead⟩ := exists_separators tokens.items
      exact ⟨lead, _, hl, spells_of_statements hs, hlead⟩
    · cases h
  · exact parse_of_spellsProgram

end QuantumScript.Parser
