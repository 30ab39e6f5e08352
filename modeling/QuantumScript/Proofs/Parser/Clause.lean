import QuantumScript.Proofs.Grammar.Stmt
import QuantumScript.Proofs.Parser.ExprSound

/-!
# The parts of statements

The readers of the parts of statements that hold no statements themselves, each with the exact
condition under which it yields something: the condition after `if` and `while`, the clause after
`for`, the parameters of a function, and what may follow `return` and `import`.
-/

namespace QuantumScript.Parser

open Token Reading Grammar

variable {ts rest : List Token} {e : Expr}

/-- A closing parenthesis goes on with no expression. -/
theorem stops_closeParen {level : Level} {t : Token} (h : t.kind = .symbol .closeParen) :
    Stops level (t :: rest) :=
  stops_of_link?_eq_none (by rw [h]; rfl)

/-- When the condition after a keyword is read. -/
theorem yields_condition {word : Keyword} :
    Yields (condition word ts) e rest ↔ ∃ used, SpellsCondition e used ∧ ts = used ++ rest := by
  simp only [condition, yields_andThen, yields_map, yields_takeSymbol, exists_prop]
  constructor
  · rintro ⟨opening, mid, ⟨rfl, hopen⟩, a, mid', ha, closing, ⟨rfl, hclose⟩, rfl⟩
    obtain ⟨used, rfl, hs, -⟩ := yields_expression.1 ha
    exact ⟨_, .intro hopen hs hclose, by simp⟩
  · rintro ⟨_, ⟨hopen, hs, hclose⟩, rfl⟩
    rename_i opening closing us
    refine ⟨opening, us ++ closing :: rest, ⟨by simp, hopen⟩, e, closing :: rest, ?_, closing,
      ⟨rfl, hclose⟩, rfl⟩
    exact yields_expression.2 ⟨us, rfl, hs, stops_closeParen hclose⟩

/-- When the clause after `for` is read. -/
theorem yields_forClause {binder : String} :
    Yields (forClause ts) (binder, e) rest ↔
      ∃ used, SpellsForClause binder e used ∧ ts = used ++ rest := by
  simp only [forClause, yields_andThen, yields_map, yields_takeSymbol, yields_takeKeyword,
    yields_takeName, exists_prop]
  constructor
  · rintro ⟨opening, mid, ⟨rfl, hopen⟩, found, mid₁, ⟨label, rfl, hlabel, -⟩, word, mid₂,
      ⟨rfl, hword⟩, a, mid₃, ha, closing, ⟨rfl, hclose⟩, heq⟩
    cases heq
    obtain ⟨used, rfl, hs, -⟩ := yields_expression.1 ha
    exact ⟨_, .intro hopen hlabel hword hs hclose, by simp⟩
  · rintro ⟨_, ⟨hopen, hlabel, hword, hs, hclose⟩, rfl⟩
    rename_i opening label word closing us
    refine ⟨opening, label :: word :: (us ++ closing :: rest), ⟨by simp, hopen⟩,
      (binder, label.span), _, ⟨label, rfl, hlabel, rfl⟩, word, _, ⟨rfl, hword⟩, e,
      closing :: rest, ?_, closing, ⟨rfl, hclose⟩, rfl⟩
    exact yields_expression.2 ⟨us, rfl, hs, stops_closeParen hclose⟩

/-! ## Parameters -/

/-- What is read up to the closing parenthesis, at least one parameter. -/
theorem spells_of_yields_someParameters {names : List String}
    (h : Yields (someParameters ts) names rest) :
    names ≠ [] ∧ ∃ used closing, SpellsNames names used ∧ closing.kind = .symbol .closeParen ∧
      ts = used ++ closing :: rest := by
  -- The induction is on the number of tokens: the names after a comma are fewer tokens.
  induction hn : ts.length using Nat.strongRecOn generalizing ts names with
  | ind n hrec =>
    subst hn
    rw [someParameters, yields_pastNewlines, yields_andThen] at h
    obtain ⟨⟨name, span⟩, mid, hname, h⟩ := h
    rw [yields_pastNewlines] at h
    have hlt : mid.length < ts.length :=
      Nat.lt_of_lt_of_le hname.shorter (length_skipNewlines_le ts)
    obtain ⟨label, hlabel, hk, -⟩ := yields_takeName.1 hname
    obtain ⟨before, hb, hbefore⟩ := exists_lineEnds ts
    obtain ⟨after, ha, hafter⟩ := exists_lineEnds mid
    have hle := length_skipNewlines_le mid
    generalize hm : skipNewlines mid = us at h hafter hle
    cases us with
    | nil =>
      rw [moreParameters] at h
      exact absurd h yields_error
    | cons t tail =>
      rw [hlabel, hafter] at hbefore
      rw [moreParameters] at h
      split at h
      · rename_i hcomma
        rw [yields_behind, yields_map] at h
        obtain ⟨others, ho, rfl⟩ := h
        have htail : tail.length < ts.length := by
          rw [List.length_cons] at hle
          omega
        obtain ⟨hne, used, closing, hs, hc, rfl⟩ := hrec _ htail ho rfl
        cases others with
        | nil => exact absurd rfl hne
        | cons next others =>
          refine ⟨by simp, before ++ label :: (after ++ t :: used), closing, ?_, hc, ?_⟩
          · exact .more hb hk ha (by simpa [isSymbol] using hcomma) hs
          · rw [hbefore]
            simp
      · split at h
        · rename_i hclose
          rw [yields_token] at h
          obtain ⟨rfl, rfl⟩ := h
          refine ⟨by simp, before ++ label :: after, t, .last hb hk ha, ?_, ?_⟩
          · simpa [isSymbol] using hclose
          · rw [hbefore]
            simp
        · exact absurd h yields_error

/-- Parameters are read up to the closing parenthesis. -/
theorem yields_of_spellsNames {names : List String} {closing : Token} (h : SpellsNames names ts)
    (hc : closing.kind = .symbol .closeParen) :
    Yields (parameters (ts ++ closing :: rest)) names rest ∧
      (names ≠ [] → Yields (someParameters (ts ++ closing :: rest)) names rest) := by
  have hnewline {t : Token} {kind : Kind} (hk : t.kind = kind) (hne : kind ≠ .newline) :
      t.isNewline = false := by
    simp [isNewline, hk, hne]
  -- Where a name comes first, the parameters are read as at least one.
  have some_of {before tail : List Token} {label : Token} {name : String} {all : List String}
      (hb : LineEnds before) (hk : label.kind = .name name)
      (h : Yields (someParameters (before ++ label :: tail)) all rest) :
      Yields (parameters (before ++ label :: tail)) all rest := by
    have hn : nextIs (·.isSymbol .closeParen) (before ++ label :: tail) = false := by
      unfold nextIs
      rw [skipNewlines_append hb (hnewline hk (by simp))]
      simp [isSymbol, hk]
    rw [parameters, if_neg (by rw [hn]; exact Bool.false_ne_true)]
    exact h
  induction h with
  | @none ts blank =>
    refine ⟨?_, fun h => absurd rfl h⟩
    have hk : skipNewlines (ts ++ closing :: rest) = closing :: rest :=
      skipNewlines_append blank (hnewline hc (by simp))
    have hn : nextIs (·.isSymbol .closeParen) (ts ++ closing :: rest) = true := by
      unfold nextIs
      rw [hk]
      simp [isSymbol, hc]
    rw [parameters, if_pos hn, yields_pastNewlines, yields_map]
    exact ⟨closing, yields_takeSymbol.2 ⟨hk, hc⟩, rfl⟩
  | @last label name before after hb hk ha =>
    have hts : before ++ label :: after ++ closing :: rest =
        before ++ label :: (after ++ closing :: rest) := by simp
    have hy :
        Yields (someParameters (before ++ label :: (after ++ closing :: rest))) [name] rest := by
      rw [someParameters, yields_pastNewlines, yields_andThen]
      refine ⟨(name, label.span), after ++ closing :: rest, yields_takeName.2
        ⟨label, skipNewlines_append hb (hnewline hk (by simp)), hk, rfl⟩, ?_⟩
      rw [yields_pastNewlines, skipNewlines_append ha (hnewline hc (by simp)), moreParameters,
        if_neg (by simp [isSymbol, hc]), if_pos (by simp [isSymbol, hc])]
      simp
    rw [hts]
    exact ⟨some_of hb hk hy, fun _ => hy⟩
  | @more label comma name next names before after others hb hk ha hcomma _ ih =>
    have hts : before ++ label :: (after ++ comma :: others) ++ closing :: rest =
        before ++ label :: (after ++ comma :: (others ++ closing :: rest)) := by simp
    have hy : Yields
        (someParameters (before ++ label :: (after ++ comma :: (others ++ closing :: rest))))
        (name :: next :: names) rest := by
      rw [someParameters, yields_pastNewlines, yields_andThen]
      refine ⟨(name, label.span), after ++ comma :: (others ++ closing :: rest), yields_takeName.2
        ⟨label, skipNewlines_append hb (hnewline hk (by simp)), hk, rfl⟩, ?_⟩
      rw [yields_pastNewlines, skipNewlines_append ha (hnewline hcomma (by simp)), moreParameters,
        if_pos (by simp [isSymbol, hcomma]), yields_behind, yields_map]
      exact ⟨next :: names, ih.2 (by simp), rfl⟩
    rw [hts]
    exact ⟨some_of hb hk hy, fun _ => hy⟩

/-- When the parameters of a function are read. -/
theorem yields_parameters {names : List String} :
    Yields (parameters ts) names rest ↔
      ∃ used closing, SpellsNames names used ∧ closing.kind = .symbol .closeParen ∧
        ts = used ++ closing :: rest := by
  constructor
  · intro h
    rw [parameters] at h
    split at h
    · rw [yields_pastNewlines, yields_map] at h
      obtain ⟨closing, hc, rfl⟩ := h
      rw [yields_takeSymbol] at hc
      obtain ⟨before, hb, hbefore⟩ := exists_lineEnds ts
      refine ⟨before, closing, .none hb, hc.2, ?_⟩
      rw [← hc.1]
      exact hbefore
    · exact (spells_of_yields_someParameters h).2
  · rintro ⟨used, closing, hs, hc, rfl⟩
    exact (yields_of_spellsNames hs hc).1

/-! ## Parts that may be missing -/

/-- When no value is read behind `return`. -/
theorem yields_returnValue_none :
    Yields (returnValue ts) none rest ↔ rest = ts ∧ ∀ t ∈ ts.head?, endsStatement t := by
  cases ts with
  | nil => simp [returnValue]
  | cons t after =>
    rw [returnValue]
    split
    · rename_i hends
      simp [hends]
    · rename_i hends
      simp [yields_loosen, yields_map, hends]

/-- When a value is read behind `return`. -/
theorem yields_returnValue_some :
    Yields (returnValue ts) (some e) rest ↔
      ∃ used, ts = used ++ rest ∧ Spells (.one .assignment e) used ∧ Stops .assignment rest := by
  rw [← yields_expression]
  cases ts with
  | nil =>
    -- Neither reads anything from no tokens.
    constructor
    · intro h
      simp [returnValue] at h
    · intro h
      exact absurd h.shorter (Nat.not_lt_zero _)
  | cons t after =>
    rw [returnValue]
    split
    · rename_i hends
      -- No expression starts with what ends a statement.
      constructor
      · intro h
        simp at h
      · intro h
        obtain ⟨used, hused, hs, -⟩ := yields_expression.1 h
        obtain ⟨u, us, rfl, hu⟩ := hs.starts
        cases hused
        have ht : t.startsStmt := by simp [startsStmt, hu]
        obtain ⟨hsep, hclose, -⟩ := not_of_startsStmt ht
        simp [endsStatement, hsep, hclose] at hends
    · simp [yields_loosen, yields_map]

/-- When no other name is read behind an import. -/
theorem yields_nickname_none :
    Yields (nickname ts) none rest ↔ rest = ts ∧ ∀ t ∈ ts.head?, t.isKeyword .known = false := by
  cases ts with
  | nil => simp [nickname]
  | cons t after =>
    rw [nickname]
    split
    · rename_i hk
      simp [yields_loose_behind, yields_map, hk]
    · rename_i hk
      simp [hk]

/-- When another name is read behind an import. -/
theorem yields_nickname_some {name : String} :
    Yields (nickname ts) (some name) rest ↔
      ∃ known other, ts = known :: other :: rest ∧ known.kind = .keyword .known ∧
        other.kind = .name name := by
  cases ts with
  | nil => simp [nickname]
  | cons t after =>
    rw [nickname]
    split
    · rename_i hk
      have hk : t.kind = .keyword .known := by simpa [isKeyword] using hk
      rw [yields_loose_behind, yields_map]
      constructor
      · rintro ⟨⟨found, span⟩, h, heq⟩
        cases heq
        obtain ⟨other, rfl, hname, -⟩ := yields_takeName.1 h
        exact ⟨t, other, rfl, hk, hname⟩
      · rintro ⟨known, other, heq, -, hname⟩
        cases heq
        exact ⟨(name, other.span), yields_takeName.2 ⟨other, rfl, hname, rfl⟩, rfl⟩
    · rename_i hk
      constructor
      · intro h
        simp at h
      · rintro ⟨known, other, heq, hknown, -⟩
        cases heq
        simp [isKeyword, hknown] at hk

end QuantumScript.Parser
