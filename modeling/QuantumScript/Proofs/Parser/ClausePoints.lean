import QuantumScript.Proofs.Parser.Clause
import QuantumScript.Proofs.Parser.ExprPoints

/-!
# The first wrong token of a part of a statement

The readers of the parts of statements that hold no statements themselves point at the first wrong
token, each with what the tokens before it can be completed to. What such a reader has yielded is
settled: it ends with a token of its own, or is told to end by the next one.
-/

namespace QuantumScript.Parser

open Token Reading Grammar

variable {ts rest : List Token} {e : Expr}

/-- The reader of expressions points at the first wrong token. -/
theorem points_expression (ts : List Token) :
    Points (fun us => Sticks (expression us)) (Starts .assignment) ts :=
  pointsAt ts .assignment

/-! ## Single tokens -/

/-- A token that has passed a test is read whatever follows. -/
theorem take_settled {test : Token → Bool} {want : Expectation} {t : Token}
    (h : Yields (take test want ts) t rest) :
    ts = [t] ++ rest ∧ test t ∧ Settled (take test want) t [t] rest := by
  obtain ⟨rfl, ht⟩ := yields_take.1 h
  exact ⟨rfl, ht, fun rest' _ => yields_take.2 ⟨rfl, ht⟩⟩

/-- A symbol is read whatever follows. -/
theorem takeSymbol_settled {sign : Symbol} {want : Expectation} {t : Token}
    (h : Yields (takeSymbol sign want ts) t rest) :
    ts = [t] ++ rest ∧ t.kind = .symbol sign ∧ Settled (takeSymbol sign want) t [t] rest := by
  obtain ⟨hts, ht, hsettled⟩ := take_settled h
  exact ⟨hts, by simpa [isSymbol] using ht, hsettled⟩

/-- A keyword is read whatever follows. -/
theorem takeKeyword_settled {keyword : Keyword} {want : Expectation} {t : Token}
    (h : Yields (takeKeyword keyword want ts) t rest) :
    ts = [t] ++ rest ∧ t.kind = .keyword keyword ∧
      Settled (takeKeyword keyword want) t [t] rest := by
  obtain ⟨hts, ht, hsettled⟩ := take_settled h
  exact ⟨hts, by simpa [isKeyword] using ht, hsettled⟩

/-- A name is read whatever follows. -/
theorem takeName_settled {want : Expectation} {found : String × Span}
    (h : Yields (takeName want ts) found rest) :
    ∃ label, ts = [label] ++ rest ∧ label.kind = .name found.1 ∧
      Settled (takeName want) found [label] rest := by
  obtain ⟨label, rfl, hname, hspan⟩ := yields_takeName.1 h
  exact ⟨label, rfl, hname, fun rest' _ => yields_takeName.2 ⟨label, rfl, hname, hspan⟩⟩

/-! ## Conditions and the clauses of loops -/

/-- Some tokens can be completed to a condition. -/
def StartsCondition (us : List Token) : Prop :=
  Begins (fun ts => ∃ e, SpellsCondition e ts) us

/-- Some tokens can be completed to the clause after `for`. -/
def StartsForClause (us : List Token) : Prop :=
  Begins (fun ts => ∃ binder e, SpellsForClause binder e ts) us

/-- What can be completed to an expression can be so to a condition, behind a parenthesis. -/
theorem Starts.condition {opening : Token} (hopen : opening.kind = .symbol .openParen)
    (h : Starts .assignment ts) : StartsCondition (opening :: ts) := by
  obtain ⟨more, e, hs⟩ := h
  refine ⟨more ++ [word (.symbol .closeParen)], e, ?_⟩
  rw [List.cons_append, ← List.append_assoc]
  exact .intro hopen hs (word_kind _)

/-- What can be completed to an expression can be so to the clause of a loop, behind a parenthesis,
a name and `in`. -/
theorem Starts.forClause {opening label inside : Token} {binder : String}
    (hopen : opening.kind = .symbol .openParen) (hlabel : label.kind = .name binder)
    (hinside : inside.kind = .keyword .inside) (h : Starts .assignment ts) :
    StartsForClause (opening :: label :: inside :: ts) := by
  obtain ⟨more, e, hs⟩ := h
  refine ⟨more ++ [word (.symbol .closeParen)], binder, e, ?_⟩
  rw [List.cons_append, List.cons_append, List.cons_append, ← List.append_assoc]
  exact .intro hopen hlabel hinside hs (word_kind _)

/-- The reader of an expression and a closing parenthesis points at the first wrong token. -/
theorem points_closed {β : Type} {want : Expectation} {viable : List Token → Prop}
    {f : Expr → Token → β} (hv : ∀ us, Starts .assignment us → viable us) (ts : List Token) :
    Points (fun us => Sticks ((expression us).andThen fun e mid _ =>
      (takeSymbol .closeParen want mid).map (f e))) viable ts := by
  refine points_andThen ((points_expression ts).mono hv) fun e rest hy => ?_
  obtain ⟨front, rfl, hs, hsettled⟩ := expression_settled hy
  refine ⟨front, rfl, hsettled, Points.congr (fun us stuck => sticks_map) (points_take want ?_)⟩
  rw [List.append_nil]
  exact hv front (starts_of_spells hs)

/-- The reader of conditions points at the first wrong token. -/
theorem points_condition (keyword : Keyword) (ts : List Token) :
    Points (fun us => Sticks (condition keyword us)) StartsCondition ts := by
  have hempty : StartsCondition ([] ++ [word (.symbol .openParen)]) :=
    (starts_nil _).condition (word_kind _)
  unfold condition
  refine points_andThen (points_take _ hempty.of_append) fun opening mid hy => ?_
  obtain ⟨rfl, hopen, hsettled⟩ := takeSymbol_settled hy
  exact ⟨[opening], rfl, hsettled, points_closed (fun us hus => hus.condition hopen) mid⟩

/-- The reader of the clause after `for` points at the first wrong token. -/
theorem points_forClause (ts : List Token) :
    Points (fun us => Sticks (forClause us)) StartsForClause ts := by
  have hempty : StartsForClause ([] ++ [word (.symbol .openParen), word (.name ""),
      word (.keyword .inside)]) :=
    (starts_nil _).forClause (word_kind _) (word_kind _) (word_kind _)
  unfold forClause
  refine points_andThen (points_take _ hempty.of_append) fun opening mid hy => ?_
  obtain ⟨rfl, hopen, hsettled⟩ := takeSymbol_settled hy
  have hnamed : StartsForClause ([opening] ++ [] ++ [word (.name ""), word (.keyword .inside)]) :=
    (starts_nil _).forClause hopen (word_kind _) (word_kind _)
  refine ⟨[opening], rfl, hsettled, points_andThen (points_takeName _ hnamed.of_append) ?_⟩
  rintro found mid hy
  obtain ⟨label, rfl, hlabel, hsettled⟩ := takeName_settled hy
  have hworded : StartsForClause ([opening] ++ ([label] ++ []) ++ [word (.keyword .inside)]) :=
    (starts_nil _).forClause hopen hlabel (word_kind _)
  refine ⟨[label], rfl, hsettled, points_andThen (points_take _ hworded.of_append) ?_⟩
  rintro inside mid hy
  obtain ⟨rfl, hinside, hsettled⟩ := takeKeyword_settled hy
  exact ⟨[inside], rfl, hsettled,
    points_closed (fun us hus => hus.forClause hopen hlabel hinside) mid⟩

/-- A condition is read whatever follows. -/
theorem condition_settled {keyword : Keyword} (h : Yields (condition keyword ts) e rest) :
    ∃ cs, ts = cs ++ rest ∧ SpellsCondition e cs ∧ Settled (condition keyword) e cs rest := by
  obtain ⟨cs, hcs, rfl⟩ := yields_condition.1 h
  exact ⟨cs, rfl, hcs, fun rest' _ => yields_condition.2 ⟨cs, hcs, rfl⟩⟩

/-- The clause after `for` is read whatever follows. -/
theorem forClause_settled {binder : String} (h : Yields (forClause ts) (binder, e) rest) :
    ∃ cs, ts = cs ++ rest ∧ SpellsForClause binder e cs ∧
      Settled forClause (binder, e) cs rest := by
  obtain ⟨cs, hcs, rfl⟩ := yields_forClause.1 h
  exact ⟨cs, rfl, hcs, fun rest' _ => yields_forClause.2 ⟨cs, hcs, rfl⟩⟩

/-! ## Parameters -/

/-- Some tokens can be completed to names divided by commas, at least one, and the closing
parenthesis. -/
def StartsSomeNames (us : List Token) : Prop :=
  Begins (fun ts => ∃ inner closing name names, SpellsNames (name :: names) inner ∧
    closing.kind = .symbol .closeParen ∧ ts = inner ++ [closing]) us

/-- Some tokens can be completed to any number of names divided by commas, and the closing
parenthesis. -/
def StartsNames (us : List Token) : Prop :=
  Begins (fun ts => ∃ inner closing names, SpellsNames names inner ∧
    closing.kind = .symbol .closeParen ∧ ts = inner ++ [closing]) us

/-- More line ends may stand in front of some names. -/
theorem spellsNames_lineEnds {before : List Token} {names : List String} (hb : LineEnds before)
    (h : SpellsNames names ts) : SpellsNames names (before ++ ts) := by
  cases h with
  | none blank => exact .none (hb.append blank)
  | last hbefore labelled hafter =>
    rw [← List.append_assoc]
    exact .last (hb.append hbefore) labelled hafter
  | more hbefore labelled hafter divided rest =>
    rw [← List.append_assoc]
    exact .more (hb.append hbefore) labelled hafter divided rest

/-- Line ends may stand before what can be completed to at least one name. -/
theorem StartsSomeNames.lineEnds {before : List Token} (hb : LineEnds before)
    (h : StartsSomeNames ts) : StartsSomeNames (before ++ ts) := by
  obtain ⟨more, inner, closing, name, names, hnames, hc, heq⟩ := h
  exact ⟨more, before ++ inner, closing, name, names, spellsNames_lineEnds hb hnames, hc,
    by simp [heq]⟩

/-- The reader of what follows a parameter points at the first wrong token, if the one of the
parameters after a comma does. -/
theorem points_moreParameters {label : Token} {name : String} {after : List Token}
    (hlabel : label.kind = .name name) (ha : LineEnds after)
    (hrec : ∀ t tail, ts = t :: tail →
      Points (fun us => Sticks (someParameters us)) StartsSomeNames tail) :
    Points (fun us => Sticks (moreParameters name us))
      (fun us => StartsSomeNames (label :: (after ++ us))) ts := by
  -- With the closing parenthesis the parameters end behind the last name.
  have hended : StartsSomeNames (label :: (after ++ [])) :=
    ⟨[word (.symbol .closeParen)], [] ++ label :: after, word (.symbol .closeParen), name, [],
      .last lineEnds_nil hlabel ha, rfl, by simp⟩
  cases ts with
  | nil =>
    exact points_nil (.expected .parenAfterParameters) hended fun stuck => by
      rw [moreParameters, sticks_error]
  | cons t tail =>
    by_cases hcomma : t.isSymbol .comma
    · have hkind : t.kind = .symbol .comma := by simpa [isSymbol] using hcomma
      refine points_behind (fun us stuck => ?_) ((hrec t tail rfl).mono ?_)
      · rw [moreParameters, if_pos hcomma, sticks_behind, sticks_map]
      · rintro us ⟨more, inner, closing, next, names, hnames, hc, heq⟩
        exact ⟨more, [] ++ label :: (after ++ t :: inner), closing, name, next :: names,
          .more lineEnds_nil hlabel ha hkind hnames, hc, by simp [heq]⟩
    by_cases hclose : t.isSymbol .closeParen
    · refine points_of_not fun stuck hstuck => ?_
      rw [moreParameters, if_neg hcomma, if_pos hclose] at hstuck
      exact not_sticks_token hstuck
    · exact points_cons (.expected .parenAfterParameters) hended fun us stuck => by
        rw [moreParameters, if_neg hcomma, if_neg hclose, sticks_error]

/-- The reader of at least one parameter points at the first wrong token. -/
theorem points_someParameters (ts : List Token) :
    Points (fun us => Sticks (someParameters us)) StartsSomeNames ts := by
  -- The induction is on the number of tokens: the names after a comma are fewer tokens.
  induction hn : ts.length using Nat.strongRecOn generalizing ts with
  | ind n hrec =>
    subst hn
    simp only [someParameters]
    refine points_pastNewlines fun before mid hb hts => ?_
    have hempty : StartsSomeNames (before ++ [] ++ [word (.name ""), word (.symbol .closeParen)]) :=
      .of_whole ⟨before ++ word (.name "") :: [], word (.symbol .closeParen), "", [],
        .last hb (word_kind _) lineEnds_nil, rfl, by simp⟩
    refine points_andThen (points_takeName _ hempty.of_append) fun found rest hy => ?_
    obtain ⟨label, rfl, hlabel, hsettled⟩ := takeName_settled hy
    refine ⟨[label], rfl, hsettled, points_pastNewlines fun after last ha hlast => ?_⟩
    refine (points_moreParameters hlabel ha fun t tail htail => ?_).mono
      fun us hus => hus.lineEnds hb
    have hlt : tail.length < ts.length := by
      rw [hts, hlast, htail]
      simp only [List.length_append, List.length_cons]
      omega
    exact hrec _ hlt tail rfl

/-- The reader of parameters points at the first wrong token. -/
theorem points_parameters (ts : List Token) :
    Points (fun us => Sticks (parameters us)) StartsNames ts := by
  unfold parameters
  refine points_ifNext (fun us stuck => sticks_skipNewlines) (fun us stuck => ?_)
    (fun before t after _ _ ht => ?_) fun before mid hb hts => ?_
  · rw [someParameters, someParameters]
    exact sticks_skipNewlines
  · exact points_of_not fun stuck => not_sticks_takeSymbol ht
  · refine (points_someParameters mid).mono fun us hus => ?_
    obtain ⟨more, inner, closing, name, names, hnames, hc, heq⟩ := hus.lineEnds hb
    exact ⟨more, inner, closing, name :: names, hnames, hc, heq⟩

/-- Parameters are read whatever follows the closing parenthesis. -/
theorem parameters_settled {names : List String} (h : Yields (parameters ts) names rest) :
    ∃ inner closing, ts = inner ++ [closing] ++ rest ∧ SpellsNames names inner ∧
      closing.kind = .symbol .closeParen ∧
      Settled parameters names (inner ++ [closing]) rest := by
  obtain ⟨inner, closing, hs, hc, rfl⟩ := yields_parameters.1 h
  refine ⟨inner, closing, by simp, hs, hc, fun rest' _ => ?_⟩
  rw [List.append_assoc]
  exact yields_parameters.2 ⟨inner, closing, hs, hc, rfl⟩

/-! ## Parts that may be missing -/

/-- The reader of what follows `return` points at the first wrong token. -/
theorem points_returnValue (ts : List Token) :
    Points (fun us => Sticks (returnValue us)) (Starts .assignment) ts := by
  cases ts with
  | nil =>
    refine points_of_not fun stuck hstuck => ?_
    rw [returnValue] at hstuck
    exact not_sticks_nothing hstuck
  | cons t after =>
    by_cases hends : endsStatement t
    · refine points_of_not fun stuck hstuck => ?_
      rw [returnValue, if_pos hends] at hstuck
      exact not_sticks_nothing hstuck
    · refine Points.congr_head (fun us hhead stuck => ?_) (points_expression (t :: after))
      obtain ⟨after', rfl⟩ := List.head?_eq_some_iff.1 hhead
      rw [returnValue, if_neg hends, sticks_loosen, sticks_map]

/-- The reader of another name points at the first wrong token. -/
theorem points_nickname {viable : List Token → Prop}
    (hv : ∀ known, known.kind = .keyword .known → viable [known]) (ts : List Token) :
    Points (fun us => Sticks (nickname us)) viable ts := by
  cases ts with
  | nil =>
    refine points_of_not fun stuck hstuck => ?_
    rw [nickname] at hstuck
    exact not_sticks_nothing hstuck
  | cons t after =>
    by_cases hknown : t.isKeyword .known
    · have hk : t.kind = .keyword .known := by simpa [isKeyword] using hknown
      refine points_behind (fun us stuck => ?_) (points_takeName .aliasName (hv t hk))
      rw [nickname, if_pos hknown, sticks_loose_behind, sticks_map]
    · refine points_of_not fun stuck hstuck => ?_
      rw [nickname, if_neg hknown] at hstuck
      exact not_sticks_nothing hstuck

end QuantumScript.Parser
