import QuantumScript.Proofs.Parser.ClausePoints
import QuantumScript.Proofs.Parser.StmtSound

/-!
# The first wrong token of a statement

The readers of statements and of programs point at the first wrong token (`stmtPoints`,
`points_statements`): the tokens before it can be completed to a statement or a program.

The proof is an induction on the number of tokens, as for the soundness of the reader. What is read
before the reader gets stuck must be read again when all behind the wrong token is changed. A
statement may be told to end by a token behind line ends and separators, where no `else` comes; so
the tokens are changed only behind the first token of the next statement (`stopsAt_congr`).
-/

namespace QuantumScript

namespace Grammar

variable {s : Stmt} {between tail tail' : List Token}

/-- Every statement may stand last. -/
theorem stopsAt_nil (s : Stmt) : s.StopsAt [] := by
  unfold Stmt.StopsAt
  cases s.ending with
  | value => exact stops_nil _
  | bareReturn | bareImport =>
    intro t ht
    cases ht
  | noElse => rfl
  | closed => trivial

/-- Whether `else` comes next is told by the first token that is no line end. -/
theorem noElse_congr (htail : ∀ t ∈ tail.head?, t.isNewline = false)
    (hhead : tail'.head? = tail.head?) (h : NoElse (between ++ tail)) :
    NoElse (between ++ tail') := by
  unfold NoElse Token.nextIs Token.skipNewlines at *
  induction between with
  | nil =>
    cases tail with
    | nil =>
      rw [List.head?_eq_none_iff.1 hhead]
      exact h
    | cons t after =>
      obtain ⟨after', rfl⟩ := List.head?_eq_some_iff.1 hhead
      have ht := htail t rfl
      rw [List.nil_append, List.dropWhile_cons_of_neg (by simp [ht])] at h ⊢
      exact h
  | cons t between ih =>
    cases hn : t.isNewline with
    | true =>
      rw [List.cons_append, List.dropWhile_cons_of_pos hn] at h ⊢
      exact ih h
    | false =>
      rw [List.cons_append, List.dropWhile_cons_of_neg (by simp [hn])] at h ⊢
      exact h

/-- Whether a statement stops is told by the tokens up to the first one that is no line end. -/
theorem stopsAt_congr (htail : ∀ t ∈ tail.head?, t.isNewline = false)
    (hhead : tail'.head? = tail.head?) (h : s.StopsAt (between ++ tail)) :
    s.StopsAt (between ++ tail') := by
  have hfirst : (between ++ tail').head? = (between ++ tail).head? :=
    Reading.head?_append_congr hhead
  unfold Stmt.StopsAt at *
  cases hs : s.ending with
  | value =>
    rw [hs] at h
    exact Stops.of_head h hfirst
  | bareReturn | bareImport =>
    rw [hs] at h
    intro t ht
    rw [hfirst] at ht
    exact h t ht
  | noElse =>
    rw [hs] at h
    exact noElse_congr htail hhead h
  | closed => trivial

end Grammar

namespace Parser

open Token Reading Grammar

variable {ts rest : List Token} {s : Stmt}

/-! ## Beginnings of statements -/

/-- Some tokens can be completed to a statement. -/
def StartsStmt (us : List Token) : Prop :=
  Begins (fun ts => ∃ s, SpellsClause Stmt.StopsAt (.stmt s) ts) us

/-- Some tokens can be completed to statements one after the other. -/
def StartsBody (us : List Token) : Prop :=
  Begins (fun ts => ∃ ss, SpellsClause Stmt.StopsAt (.body ss) ts) us

/-- Some tokens can be completed to a block behind line ends. -/
def StartsBlock (us : List Token) : Prop :=
  Begins (fun ts => ∃ before inner body start, LineEnds before ∧
    SpellsClause Stmt.StopsAt (.block body start) inner ∧ ts = before ++ inner) us

/-- Some tokens can be completed to what follows `else`. -/
def StartsBranch (us : List Token) : Prop :=
  Begins (fun ts => ∃ before inner s, LineEnds before ∧ s.isBranch ∧
    SpellsClause Stmt.StopsAt (.stmt s) inner ∧ ts = before ++ inner) us

/-- Some tokens behind `if` can be completed to a condition with its blocks. -/
def StartsConditional (keyword : Token) (us : List Token) : Prop :=
  Begins (fun ts => ∃ s, s.isBranch ∧ SpellsClause Stmt.StopsAt (.stmt s) (keyword :: ts)) us

/-- What can be completed to a statement can be so to statements. -/
theorem StartsStmt.body (h : StartsStmt ts) : StartsBody ts := by
  obtain ⟨more, s, hs⟩ := h
  refine ⟨more, [s], ?_⟩
  have hbody : SpellsClause Stmt.StopsAt (.body [s]) ((ts ++ more) ++ ([] ++ [])) :=
    .cons hs (fun t ht => absurd ht List.not_mem_nil) (stopsAt_nil s) .nil
  simpa using hbody

/-- What can be completed to statements can be so behind a statement, if that stops before it. -/
theorem StartsBody.cons {between used : List Token} (h : StartsBody used)
    (hs : SpellsClause Stmt.StopsAt (.stmt s) ts) (hb : Separators between)
    (hfirst : ∀ t ∈ (used ++ rest).head?, t.isNewline = false)
    (hstop : s.StopsAt (between ++ (used ++ rest))) :
    StartsBody (ts ++ (between ++ used)) := by
  cases used with
  | nil =>
    -- Nothing was taken of the next statement, so this one may stand last.
    have hlast : s.StopsAt (between ++ []) := by
      rw [List.append_nil]
      exact stopsAt_of_append hstop
    exact .of_whole ⟨[s], .cons hs hb hlast .nil⟩
  | cons t us =>
    obtain ⟨more, ss, hss⟩ := h
    refine ⟨more, s :: ss, ?_⟩
    have hnext : s.StopsAt (between ++ (t :: us ++ more)) := stopsAt_congr hfirst rfl hstop
    have hbody := SpellsClause.cons hs hb hnext hss
    simpa using hbody

/-- Blocks may stand behind line ends. -/
theorem startsBlock_nil {before : List Token} (hb : LineEnds before) : StartsBlock before := by
  have hblock : SpellsClause Stmt.StopsAt (.block [] .anywhere)
      (word (.symbol .openBrace) :: ([] ++ ([] ++ [word (.symbol .closeBrace)]))) :=
    .braces (word_kind _) (fun t ht => absurd ht List.not_mem_nil) .nil (word_kind _)
  exact ⟨_, before, _, [], .anywhere, hb, hblock, rfl⟩

/-- What can be completed to statements can be so to a block, behind a brace and separators. -/
theorem StartsBody.block {before lead : List Token} {opening : Token} (h : StartsBody ts)
    (hb : LineEnds before) (hopen : opening.kind = .symbol .openBrace) (hl : Separators lead) :
    StartsBlock (before ++ opening :: (lead ++ ts)) := by
  obtain ⟨more, ss, hs⟩ := h
  refine ⟨more ++ [word (.symbol .closeBrace)], before, _, ss, opening.span, hb,
    .braces hopen hl hs (word_kind _), ?_⟩
  simp

/-- The reader of a statement points at the first wrong token, and so does the reader of what
follows `if`. -/
structure StmtPoints (ts : List Token) : Prop where
  /-- Statements. -/
  statement : Points (fun us => Sticks (statement us)) StartsStmt ts
  /-- What follows `if`. -/
  conditional : ∀ keyword : Token, keyword.kind = .keyword .cond →
    Points (fun us => Sticks (conditional keyword.span us)) (StartsConditional keyword) ts

/-- The readers point at the first wrong of fewer than so many tokens. -/
def StmtPointsBelow (count : Nat) : Prop :=
  ∀ ts : List Token, ts.length < count → StmtPoints ts

/-- Readers that point at the first wrong token below a count do so below a smaller one. -/
theorem StmtPointsBelow.mono {a b : Nat} (h : StmtPointsBelow b) (hab : a ≤ b) :
    StmtPointsBelow a :=
  fun ts hlt => h ts (Nat.lt_of_lt_of_le hlt hab)

/-! ## Statements one after the other -/

/-- The reader of a statement and of those behind it points at the first wrong token if both
readers do. -/
theorem points_statement_then {sticks : List Token → Stuck → Prop}
    (later : List Token → Stuck → Prop)
    (hsticks : ∀ us, us.head? = ts.head? → ∀ stuck, sticks us stuck ↔
      Sticks (statement us) stuck ∨
        ∃ s mid, Yields (statement us) s mid ∧ later (skipSeparators mid) stuck)
    (hfirst : Points (fun us => Sticks (statement us)) StartsStmt ts)
    (hlater : ∀ s mid, Yields (statement ts) s mid →
      Points later StartsBody (skipSeparators mid)) :
    Points sticks StartsBody ts := by
  intro reason rest hstuck
  rcases (hsticks ts rfl _).1 hstuck with hs | ⟨s, mid, hy, hs⟩
  · obtain ⟨used, rfl, hviable, hsame⟩ := hfirst reason rest hs
    refine ⟨used, rfl, hviable.body, fun rest' hhead => ?_⟩
    exact (hsticks _ (head?_append_congr hhead) _).2 (.inl (hsame rest' hhead))
  · -- The statement stops before what follows the separators, and does so again.
    obtain ⟨first, rfl, hspells, hstop⟩ := yields_statement.1 hy
    obtain ⟨between, tail, hb, rfl, htail, hhead⟩ := exists_dropWhile isSeparator mid
    have hpoints := hlater s _ hy
    unfold skipSeparators at hs hpoints
    rw [← htail] at hs hpoints
    obtain ⟨used, rfl, hviable, hsame⟩ := hpoints reason rest hs
    have hnewline : ∀ t ∈ (used ++ rest).head?, t.isNewline = false := fun t ht => by
      have hsep := hhead t ht
      simp only [isSeparator, Bool.or_eq_false_iff] at hsep
      exact hsep.1
    refine ⟨first ++ (between ++ used), by simp, hviable.cons hspells hb hnewline hstop,
      fun rest' hrest => ?_⟩
    have hchanged : (used ++ rest').head? = (used ++ rest).head? := head?_append_congr hrest
    have hts : first ++ (between ++ used) ++ rest' = first ++ (between ++ (used ++ rest')) := by
      simp
    have hfront : (first ++ (between ++ (used ++ rest'))).head? =
        (first ++ (between ++ (used ++ rest))).head? :=
      head?_append_congr (head?_append_congr hchanged)
    rw [hts]
    refine (hsticks _ hfront _).2 (.inr ⟨s, between ++ (used ++ rest'), ?_, ?_⟩)
    · exact yields_statement.2 ⟨_, rfl, hspells, stopsAt_congr hnewline hchanged hstop⟩
    · unfold skipSeparators
      rw [dropWhile_append_of_head hb (by rwa [hchanged])]
      exact hsame rest' hrest

/-- Where the reader of a program is stuck. -/
theorem statements_eq_error {t : Token} {stuck : Stuck} :
    statements (t :: ts) = .error stuck ↔
      Sticks (statement (t :: ts)) stuck ∨
        ∃ s mid, Yields (statement (t :: ts)) s mid ∧
          statements (skipSeparators mid) = .error stuck := by
  rw [statements]
  cases hs : statement (t :: ts) with
  | error other => simp [Sticks]
  | ok found =>
    obtain ⟨s, mid, hlt⟩ := found
    dsimp only
    constructor
    · intro h
      refine .inr ⟨s, mid, ⟨hlt, rfl⟩, ?_⟩
      cases ho : statements (skipSeparators mid) with
      | error other =>
        rw [ho] at h
        cases h
        rfl
      | ok others =>
        rw [ho] at h
        cases h
    · rintro (h | ⟨s', mid', ⟨hlt', hy⟩, h⟩)
      · cases h
      · cases hy
        rw [h]
        rfl

/-- The reader of the statements of a block points at the first wrong token. -/
theorem points_blockBody (ih : StmtPointsBelow (ts.length + 1)) :
    Points (fun us => Sticks (blockBody us)) StartsBody ts := by
  have hempty : StartsBody [] := .of_whole ⟨[], .nil⟩
  -- The induction is on the number of tokens: what stands behind a statement is fewer tokens.
  induction hn : ts.length using Nat.strongRecOn generalizing ts with
  | ind n hrec =>
    subst hn
    cases ts with
    | nil =>
      exact points_nil (.expected .blockEnd) hempty fun stuck => by rw [blockBody, sticks_error]
    | cons t after =>
      by_cases hclose : t.isSymbol .closeBrace
      · refine points_of_not fun stuck hstuck => ?_
        rw [blockBody, if_pos hclose] at hstuck
        exact not_sticks_token hstuck
      · refine points_statement_then (fun us => Sticks (blockBody us)) (fun us hhead stuck => ?_)
          (ih _ (Nat.lt_succ_self _)).statement fun s mid hy => ?_
        · obtain ⟨after', rfl⟩ := List.head?_eq_some_iff.1 hhead
          rw [blockBody, if_neg hclose]
          simp only [sticks_andThen, sticks_pastSeparators, sticks_map, exists_prop]
        · have hlt : (skipSeparators mid).length < (t :: after).length :=
            Nat.lt_of_le_of_lt (length_skipSeparators_le mid) hy.shorter
          exact hrec _ hlt (ih.mono (by omega)) rfl

/-- The reader of blocks points at the first wrong token. -/
theorem points_block (ih : StmtPointsBelow ts.length) :
    Points (fun us => Sticks (block us)) StartsBlock ts := by
  simp only [block]
  refine points_pastNewlines fun before mid hb hts => ?_
  refine points_andThen (points_take _ ?_) fun opening rest hy => ?_
  · rw [List.append_nil]
    exact startsBlock_nil hb
  · obtain ⟨rfl, hopen, hsettled⟩ := takeSymbol_settled hy
    refine ⟨[opening], rfl, hsettled, points_pastSeparators fun lead last hl hlast => ?_⟩
    have hle : last.length + 1 ≤ ts.length := by
      rw [hts, hlast]
      simp only [List.length_append, List.length_cons]
      omega
    refine Points.congr (fun us stuck => sticks_map) ((points_blockBody (ih.mono hle)).mono ?_)
    exact fun us hus => hus.block hb hopen hl

/-- A block is read whatever follows. -/
theorem block_settled {body : List Stmt} {start : Span}
    (h : Yields (block ts) (body, start) rest) :
    ∃ before inner, ts = (before ++ inner) ++ rest ∧ LineEnds before ∧
      SpellsClause Stmt.StopsAt (.block body start) inner ∧
      Settled block (body, start) (before ++ inner) rest := by
  obtain ⟨before, inner, hb, hs, rfl⟩ := spells_of_yields_block (fun us _ => stmtSound us) h
  refine ⟨before, inner, by simp, hb, hs, fun rest' _ => ?_⟩
  rw [List.append_assoc]
  exact (clauseReads_of_spellsClause hs).block_behind hs hb rest'

/-! ## Conditions -/

/-- The reader of what follows `else` points at the first wrong token. -/
theorem points_branch (ih : StmtPointsBelow ts.length) :
    Points (fun us => Sticks (branch us)) StartsBranch ts := by
  simp only [branch]
  refine points_ifNext (fun us stuck => sticks_skipNewlines) (fun us stuck => ?_)
    (fun before t after hb hts ht => ?_) fun before mid hb hts => ?_
  · rw [sticks_map, sticks_map, block, block]
    exact sticks_skipNewlines
  · have hk : t.kind = .keyword .cond := by simpa [isKeyword] using ht
    have hlt : after.length < ts.length := by
      rw [hts, List.length_append, List.length_cons]
      omega
    refine points_behind (fun us stuck => ?_) (((ih after hlt).conditional t hk).mono ?_)
    · exact sticks_behind_keyword hk
    · rintro us ⟨more, s, hbranch, hs⟩
      exact ⟨more, before, t :: (us ++ more), s, hb, hbranch, hs, by simp⟩
  · have hle : mid.length ≤ ts.length := by
      rw [hts, List.length_append]
      omega
    refine Points.congr (fun us stuck => sticks_map) ((points_block (ih.mono hle)).mono ?_)
    rintro us ⟨more, lead, inner, body, start, hl, hs, heq⟩
    exact ⟨more, before ++ lead, inner, .block body start, hb.append hl, rfl, .block hs,
      by simp [heq]⟩

/-- The reader of `else` points at the first wrong token. -/
theorem points_otherwise {viable : List Token → Prop} (ih : StmtPointsBelow ts.length)
    (hv : ∀ between other us, LineEnds between → other.kind = .keyword .otherwise →
      StartsBranch us → viable (between ++ other :: us)) :
    Points (fun us => Sticks (otherwise us)) viable ts := by
  simp only [otherwise]
  refine points_ifNext (fun us stuck => ?_) (fun us stuck => ?_)
    (fun before t after hb hts ht => ?_) fun before mid hb hts => ?_
  · rw [sticks_loosen, sticks_loosen]
    exact sticks_skipNewlines
  · exact iff_of_false not_sticks_nothing not_sticks_nothing
  · have hk : t.kind = .keyword .otherwise := by simpa [isKeyword] using ht
    have hle : after.length ≤ ts.length := by
      rw [hts, List.length_append, List.length_cons]
      omega
    refine points_behind (fun us stuck => ?_) ((points_branch (ih.mono hle)).mono ?_)
    · rw [sticks_loosen]
      exact (sticks_behind_keyword hk).trans sticks_map
    · exact fun us hus => hv before t us hb hk hus
  · exact points_of_not fun stuck => not_sticks_nothing

/-- What can be completed to a block can be so to a condition, behind the test. -/
theorem StartsBlock.conditional {keyword : Token} {e : Expr} {cs : List Token}
    (h : StartsBlock ts) (hk : keyword.kind = .keyword .cond) (hcs : SpellsCondition e cs) :
    StartsConditional keyword (cs ++ ts) := by
  obtain ⟨more, before, inner, body, start, hb, hs, heq⟩ := h
  refine ⟨more, .cond e (.block body start) none keyword.span, rfl, ?_⟩
  rw [List.append_assoc, heq]
  exact .cond hk hcs hb hs

/-- The reader of what follows `if` points at the first wrong token. -/
theorem points_conditional {keyword : Token} (hk : keyword.kind = .keyword .cond)
    (ih : StmtPointsBelow ts.length) :
    Points (fun us => Sticks (conditional keyword.span us)) (StartsConditional keyword) ts := by
  simp only [conditional]
  refine points_andThen ((points_condition .cond ts).mono ?_) fun e mid hy => ?_
  · rintro us ⟨more, e, hcs⟩
    exact ((startsBlock_nil lineEnds_nil).conditional hk hcs).of_append.of_append
  · have hmid := hy.shorter
    obtain ⟨cs, rfl, hcs, hsettled⟩ := condition_settled hy
    refine ⟨cs, rfl, hsettled, points_andMaybe
      ((points_block (ih.mono (Nat.le_of_lt hmid))).mono fun us hus => hus.conditional hk hcs) ?_⟩
    rintro ⟨yes, start⟩ tail hy
    have htail := hy.shorter
    obtain ⟨before, inner, rfl, hb, hs, hsettled⟩ := block_settled hy
    refine ⟨before ++ inner, rfl, hsettled, Points.congr (fun us stuck => sticks_loose_map)
      (points_otherwise (ih.mono (by omega)) ?_)⟩
    rintro between other us hbetween hother ⟨more, after, ns, no, ha, hbranch, hno, heq⟩
    refine ⟨more, .cond e (.block yes start) (some no) keyword.span, rfl, ?_⟩
    have hwhole := SpellsClause.condElse hk hcs hb hs hbetween hother ha hbranch hno
    rw [← heq] at hwhole
    simpa using hwhole

/-! ## Statements -/

/-- No tokens can be completed to a statement. -/
theorem startsStmt_nil : StartsStmt [] :=
  ⟨[word (.keyword .null)], .expr (.null .anywhere), .expr (.atom rfl)⟩

/-- A reader that ends with a block points at the first wrong token if the reader of what comes
before the block does, and if that is settled. -/
theorem points_before_block {β γ : Type} {header : (us : List Token) → Reading β us}
    {f : β → List Stmt × Span → γ} {viable : List Token → Prop} (ih : StmtPointsBelow ts.length)
    (hheader : Points (fun us => Sticks (header us)) viable ts)
    (hblock : ∀ found mid, Yields (header ts) found mid → ∃ front, ts = front ++ mid ∧
      Settled header found front mid ∧ ∀ us, StartsBlock us → viable (front ++ us)) :
    Points (fun us => Sticks ((header us).andThen fun found mid _ => (block mid).map (f found)))
      viable ts := by
  refine points_andThen hheader fun found mid hy => ?_
  obtain ⟨front, hfront, hsettled, hv⟩ := hblock found mid hy
  exact ⟨front, hfront, hsettled, Points.congr (fun us stuck => sticks_map)
    ((points_block (ih.mono (Nat.le_of_lt hy.shorter))).mono hv)⟩

section Words

variable {t : Token} {after : List Token}

/-- What can be completed to a block can be so to a function, behind its name and parameters. -/
theorem StartsBlock.function {label opening closing : Token} {name : String}
    {params : List String} {ps : List Token} (h : StartsBlock ts)
    (hk : t.kind = .keyword .function) (hlabel : label.kind = .name name)
    (hopen : opening.kind = .symbol .openParen) (hps : SpellsNames params ps)
    (hc : closing.kind = .symbol .closeParen) :
    StartsStmt (t :: label :: opening :: (ps ++ [closing] ++ ts)) := by
  obtain ⟨more, before, inner, body, start, hb, hs, heq⟩ := h
  have hwhole := SpellsClause.function hk hlabel hopen hps hc hb hs
  rw [← heq] at hwhole
  exact ⟨more, _, by simpa using hwhole⟩

/-- What can be completed to parameters can be so to a function, behind its name. -/
theorem StartsNames.function {label opening : Token} {name : String} (h : StartsNames ts)
    (hk : t.kind = .keyword .function) (hlabel : label.kind = .name name)
    (hopen : opening.kind = .symbol .openParen) :
    StartsStmt (t :: label :: opening :: ts) := by
  obtain ⟨more, ps, closing, params, hps, hc, heq⟩ := h
  have hwhole := (startsBlock_nil lineEnds_nil).function hk hlabel hopen hps hc
  rw [← heq, List.append_nil] at hwhole
  exact Begins.of_append hwhole

/-- The reader of functions points at the first wrong token. -/
theorem points_function (hk : t.kind = .keyword .function)
    (ih : StmtPointsBelow (t :: after).length) :
    Points (fun us => Sticks (statement us)) StartsStmt (t :: after) := by
  have hread (us : List Token) : statement (t :: us) = .behind t
      ((takeName .functionName us).andThen fun found mid _ =>
        (takeSymbol .openParen .parenAfterFunctionName mid).andThen fun _ mid _ =>
          (parameters mid).andThen fun params mid _ =>
            (block mid).map fun whole => .function found.1 params whole.1 t.span) := by
    rw [statement.eq_def]
    simp only [hk]
  have hnames : StartsNames [] :=
    ⟨[word (.symbol .closeParen)], [], _, [], .none lineEnds_nil, word_kind _, rfl⟩
  have hempty : StartsStmt ([t] ++ [word (.name ""), word (.symbol .openParen)]) :=
    hnames.function hk (word_kind _) (word_kind _)
  refine points_behind (fun us stuck => by rw [hread, sticks_behind])
    (points_andThen (points_takeName _ hempty.of_append) fun found mid hy => ?_)
  have hmid := hy.shorter
  obtain ⟨label, rfl, hlabel, hsettled⟩ := takeName_settled hy
  have hnamed : StartsStmt ([t, label] ++ [word (.symbol .openParen)]) :=
    hnames.function hk hlabel (word_kind _)
  refine ⟨[label], rfl, hsettled, points_andThen (points_take _ hnamed.of_append) ?_⟩
  rintro opening rest hy
  have hrest := hy.shorter
  obtain ⟨rfl, hopen, hsettled⟩ := takeSymbol_settled hy
  have hle : rest.length ≤ (t :: ([label] ++ ([opening] ++ rest))).length := by
    rw [List.length_cons]
    omega
  refine ⟨[opening], rfl, hsettled, points_before_block (ih.mono hle)
    ((points_parameters rest).mono fun us hus => hus.function hk hlabel hopen) ?_⟩
  intro params tail hy
  obtain ⟨ps, closing, rfl, hps, hc, hsettled⟩ := parameters_settled hy
  exact ⟨ps ++ [closing], rfl, hsettled, fun us hus => hus.function hk hlabel hopen hps hc⟩

/-- What can be completed to a block can be so to a loop, behind its test. -/
theorem StartsBlock.whileLoop {e : Expr} {cs : List Token} (h : StartsBlock ts)
    (hk : t.kind = .keyword .whileLoop) (hcs : SpellsCondition e cs) :
    StartsStmt (t :: (cs ++ ts)) := by
  obtain ⟨more, before, inner, body, start, hb, hs, heq⟩ := h
  have hwhole := SpellsClause.whileLoop hk hcs hb hs
  rw [← heq] at hwhole
  exact ⟨more, _, by simpa using hwhole⟩

/-- The reader of loops with a test points at the first wrong token. -/
theorem points_whileLoop (hk : t.kind = .keyword .whileLoop)
    (ih : StmtPointsBelow (t :: after).length) :
    Points (fun us => Sticks (statement us)) StartsStmt (t :: after) := by
  have hread (us : List Token) : statement (t :: us) = .behind t
      ((condition .whileLoop us).andThen fun test mid _ =>
        (block mid).map fun whole => .whileLoop test (.block whole.1 whole.2) t.span) := by
    rw [statement.eq_def]
    simp only [hk]
  refine points_behind (fun us stuck => by rw [hread, sticks_behind])
    (points_before_block (ih.mono (Nat.le_succ _)) ((points_condition _ after).mono ?_) ?_)
  · rintro us ⟨more, e, hcs⟩
    have hwhole := (startsBlock_nil lineEnds_nil).whileLoop hk hcs
    rw [List.append_nil] at hwhole
    exact Begins.of_append hwhole
  · intro e mid hy
    obtain ⟨cs, rfl, hcs, hsettled⟩ := condition_settled hy
    exact ⟨cs, rfl, hsettled, fun us hus => hus.whileLoop hk hcs⟩

/-- What can be completed to a block can be so to a loop, behind its clause. -/
theorem StartsBlock.forLoop {binder : String} {e : Expr} {cs : List Token} (h : StartsBlock ts)
    (hk : t.kind = .keyword .forLoop) (hcs : SpellsForClause binder e cs) :
    StartsStmt (t :: (cs ++ ts)) := by
  obtain ⟨more, before, inner, body, start, hb, hs, heq⟩ := h
  have hwhole := SpellsClause.forLoop hk hcs hb hs
  rw [← heq] at hwhole
  exact ⟨more, _, by simpa using hwhole⟩

/-- The reader of loops through items points at the first wrong token. -/
theorem points_forLoop (hk : t.kind = .keyword .forLoop)
    (ih : StmtPointsBelow (t :: after).length) :
    Points (fun us => Sticks (statement us)) StartsStmt (t :: after) := by
  have hread (us : List Token) : statement (t :: us) = .behind t
      ((forClause us).andThen fun found mid _ =>
        (block mid).map fun whole =>
          .forLoop found.1 found.2 (.block whole.1 whole.2) t.span) := by
    rw [statement.eq_def]
    simp only [hk]
  refine points_behind (fun us stuck => by rw [hread, sticks_behind])
    (points_before_block (ih.mono (Nat.le_succ _)) ((points_forClause after).mono ?_) ?_)
  · rintro us ⟨more, binder, e, hcs⟩
    have hwhole := (startsBlock_nil lineEnds_nil).forLoop hk hcs
    rw [List.append_nil] at hwhole
    exact Begins.of_append hwhole
  · rintro ⟨binder, e⟩ mid hy
    obtain ⟨cs, rfl, hcs, hsettled⟩ := forClause_settled hy
    exact ⟨cs, rfl, hsettled, fun us hus => hus.forLoop hk hcs⟩

/-- The reader of `return` points at the first wrong token. -/
theorem points_giveBack (hk : t.kind = .keyword .giveBack) :
    Points (fun us => Sticks (statement us)) StartsStmt (t :: after) := by
  have hread (us : List Token) (stuck : Stuck) :
      Sticks (statement (t :: us)) stuck ↔ Sticks (returnValue us) stuck := by
    rw [statement.eq_def]
    simp only [hk, sticks_andMaybe, not_sticks_token, false_or, yields_token, sticks_loose_map,
      exists_prop]
    constructor
    · rintro ⟨_, mid, ⟨-, rfl⟩, h⟩
      exact h
    · intro h
      exact ⟨(), us, ⟨trivial, rfl⟩, h⟩
  show Points _ _ ([t] ++ after)
  refine Points.behind (fun us _ stuck => hread us stuck) ((points_returnValue after).mono ?_)
  rintro us ⟨more, e, hs⟩
  exact ⟨more, .giveBack (some e) t.span, .giveBackValue hk hs⟩

/-- The reader of imports points at the first wrong token. -/
theorem points_importing (hk : t.kind = .keyword .importing) :
    Points (fun us => Sticks (statement us)) StartsStmt (t :: after) := by
  have hread (us : List Token) : statement (t :: us) = .behind t
      ((takeName .moduleName us).andMaybe fun found mid _ =>
        (nickname mid).map fun known => .importing found.1 known t.span) := by
    rw [statement.eq_def]
    simp only [hk]
  have hempty : StartsStmt [t] :=
    ⟨[word (.name "")], _, .importing hk (word_kind _)⟩
  refine points_behind (fun us stuck => by rw [hread, sticks_behind])
    (points_andMaybe (points_takeName _ hempty) fun found mid hy => ?_)
  obtain ⟨label, rfl, hlabel, hsettled⟩ := takeName_settled hy
  refine ⟨[label], rfl, hsettled, Points.congr (fun us stuck => sticks_loose_map)
    (points_nickname (fun known hknown => ?_) mid)⟩
  exact ⟨[word (.name "")], _, .importingAs hk hlabel hknown (word_kind _)⟩

/-- The reader of blocks as statements points at the first wrong token. -/
theorem points_block_statement (hk : t.kind = .symbol .openBrace)
    (ih : StmtPointsBelow (t :: after).length) :
    Points (fun us => Sticks (statement us)) StartsStmt (t :: after) := by
  refine Points.congr_head (fun us hhead stuck => ?_) ((points_block ih).mono_of_append ?_)
  · obtain ⟨after', rfl⟩ := List.head?_eq_some_iff.1 hhead
    rw [statement.eq_def]
    simp only [hk, sticks_map]
  · rintro us vs hus ⟨more, before, inner, body, start, hb, hs, heq⟩
    cases us with
    | nil => exact startsStmt_nil
    | cons u us =>
      -- The first token is a brace, so no line end stands before the block.
      cases hus
      cases before with
      | nil => exact ⟨more, .block body start, by rw [heq]; exact .block hs⟩
      | cons lead before =>
        obtain ⟨rfl, -⟩ := List.cons.inj heq
        have hnewline := hb t (by simp)
        simp [isNewline, hk] at hnewline

end Words

/-- The reader of statements points at the first wrong token. -/
theorem points_statement (ih : StmtPointsBelow ts.length) :
    Points (fun us => Sticks (statement us)) StartsStmt ts := by
  cases ts with
  | nil =>
    exact points_nil .expression startsStmt_nil fun stuck => by rw [statement, sticks_error]
  | cons t after =>
    -- One case for each word that starts a statement, then blocks, then expressions.
    by_cases hfunction : t.kind = .keyword .function
    · exact points_function hfunction ih
    by_cases hcond : t.kind = .keyword .cond
    · refine points_behind (fun us stuck => ?_) (((ih after (by simp)).conditional t hcond).mono ?_)
      · rw [statement.eq_def]
        simp only [hcond, sticks_behind]
      · rintro us ⟨more, s, -, hs⟩
        exact ⟨more, s, hs⟩
    by_cases hwhile : t.kind = .keyword .whileLoop
    · exact points_whileLoop hwhile ih
    by_cases hfor : t.kind = .keyword .forLoop
    · exact points_forLoop hfor ih
    by_cases hreturn : t.kind = .keyword .giveBack
    · exact points_giveBack hreturn
    by_cases himport : t.kind = .keyword .importing
    · exact points_importing himport
    by_cases hbrace : t.kind = .symbol .openBrace
    · exact points_block_statement hbrace ih
    · refine Points.congr_head (fun us hhead stuck => ?_)
        ((points_expression (t :: after)).mono ?_)
      · obtain ⟨after', rfl⟩ := List.head?_eq_some_iff.1 hhead
        rw [statement.eq_def]
        dsimp only
        split <;> first | exact sticks_map | (rename_i hk; contradiction)
      · rintro us ⟨more, e, hs⟩
        exact ⟨more, .expr e, .expr hs⟩

/-- The readers of statements point at the first wrong token. -/
theorem stmtPoints (ts : List Token) : StmtPoints ts := by
  induction hn : ts.length using Nat.strongRecOn generalizing ts with
  | ind n hrec =>
    subst hn
    have ih : StmtPointsBelow ts.length := fun us hlt => hrec _ hlt us rfl
    exact ⟨points_statement ih, fun keyword hk => points_conditional hk ih⟩

/-- The reader of a program points at the first wrong token. -/
theorem points_statements (ts : List Token) :
    Points (fun us stuck => statements us = .error stuck) StartsBody ts := by
  -- The induction is on the number of tokens: what stands behind a statement is fewer tokens.
  induction hn : ts.length using Nat.strongRecOn generalizing ts with
  | ind n hrec =>
    subst hn
    cases ts with
    | nil =>
      refine points_of_not fun stuck hstuck => ?_
      rw [statements] at hstuck
      cases hstuck
    | cons t after =>
      refine points_statement_then (fun us stuck => statements us = .error stuck)
        (fun us hhead stuck => ?_) (stmtPoints _).statement fun s mid hy => ?_
      · obtain ⟨after', rfl⟩ := List.head?_eq_some_iff.1 hhead
        exact statements_eq_error
      · have hlt : (skipSeparators mid).length < (t :: after).length :=
          Nat.lt_of_le_of_lt (length_skipSeparators_le mid) hy.shorter
        exact hrec _ hlt _ rfl

end Parser

end QuantumScript
