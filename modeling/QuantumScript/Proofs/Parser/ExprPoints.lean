import QuantumScript.Proofs.Parser.ExprSound
import QuantumScript.Proofs.Parser.Points

/-!
# The first wrong token of an expression

Wherever the reader of an expression is stuck, the tokens before can be completed to an expression,
and the token it is stuck at is the first that fits nowhere (`pointsAt`).

The proof is an induction on the number of tokens, as for the soundness of the reader. An expression
that is read before the reader gets stuck is read again before all tokens that begin with the same
one, because the token behind an expression is all that can go on with it (`atLevel_settled`).
-/

namespace QuantumScript

/-- Whether an expression goes on is told by the next token. -/
theorem Stops.of_head {level : Level} {rest rest' : List Token} (h : Stops level rest)
    (hhead : rest'.head? = rest.head?) : Stops level rest' := by
  unfold Stops at *
  rwa [hhead]

/-- Line ends behind line ends are line ends. -/
theorem Grammar.LineEnds.append {before after : List Token} (hb : LineEnds before)
    (ha : LineEnds after) : LineEnds (before ++ after) :=
  fun t ht => (List.mem_append.1 ht).elim (hb t) (ha t)

namespace Parser

open Token Reading Grammar

variable {level : Level} {ts rest : List Token} {e : Expr}

/-! ## Beginnings of expressions -/

/-- Some tokens can be completed to an expression at a level. -/
def Starts (level : Level) (us : List Token) : Prop :=
  Begins (fun ts => ∃ e, Spells (.one level e) ts) us

/-- Some tokens can be completed to an expression and a closing symbol. -/
def StartsEnclosed (close : Symbol) (us : List Token) : Prop :=
  Begins (fun ts => ∃ before inner after closing e, LineEnds before ∧
    Spells (.one .assignment e) inner ∧ LineEnds after ∧ closing.kind = .symbol close ∧
    ts = before ++ (inner ++ (after ++ [closing]))) us

/-- Some tokens can be completed to expressions divided by commas, at least one, and a closing
symbol. -/
def StartsSomeItems (close : Symbol) (us : List Token) : Prop :=
  Begins (fun ts => ∃ inner closing e es, Spells (.many (e :: es)) inner ∧
    closing.kind = .symbol close ∧ ts = inner ++ [closing]) us

/-- Some tokens can be completed to any number of expressions divided by commas, and a closing
symbol. -/
def StartsItems (close : Symbol) (us : List Token) : Prop :=
  Begins (fun ts => ∃ inner closing es, Spells (.many es) inner ∧
    closing.kind = .symbol close ∧ ts = inner ++ [closing]) us

/-- No tokens can be completed to an expression at every level. -/
theorem starts_nil (level : Level) : Starts level [] :=
  ⟨[word (.keyword .null)], .null .anywhere, .atom rfl⟩

/-- The tokens of an expression need not be completed. -/
theorem starts_of_spells (h : Spells (.one level e) ts) : Starts level ts :=
  .of_whole ⟨e, h⟩

/-- What can be completed at a level can be so at every looser one. -/
theorem Starts.loosen {loose : Level} (h : Starts level ts) (hl : loose ≤ level) :
    Starts loose ts := by
  obtain ⟨more, e, hs⟩ := h
  exact ⟨more, e, hs.loosen _ _ rfl _ hl⟩

/-- An expression that is read is spelled by some tokens in front, and is read again before all
tokens that begin with the same one. -/
theorem atLevel_settled (h : Yields (atLevel level ts) e rest) :
    ∃ front, ts = front ++ rest ∧ Spells (.one level e) front ∧ Stops level rest ∧
      Settled (atLevel level) e front rest := by
  obtain ⟨front, hfront, hs, hstop⟩ := spells_of_yields h
  exact ⟨front, hfront, hs, hstop, fun rest' hhead => yields_of_spells hs (hstop.of_head hhead)⟩

/-- An expression of the loosest level that is read is spelled by some tokens in front, and is read
again before all tokens that begin with the same one. -/
theorem expression_settled (h : Yields (expression ts) e rest) :
    ∃ front, ts = front ++ rest ∧ Spells (.one .assignment e) front ∧
      Settled expression e front rest := by
  have h : Yields (atLevel .assignment ts) e rest := h
  obtain ⟨front, hfront, hs, -, hsettled⟩ := atLevel_settled h
  exact ⟨front, hfront, hs, hsettled⟩

/-- The reader of a level points at the first wrong token. -/
def PointsAt (level : Level) (ts : List Token) : Prop :=
  Points (fun us => Sticks (atLevel level us)) (Starts level) ts

/-- The readers of all levels point at the first wrong of fewer than so many tokens. -/
def PointsBelow (count : Nat) : Prop :=
  ∀ ts : List Token, ts.length < count → ∀ level, PointsAt level ts

/-- Readers that point at the first wrong token below a count do so below a smaller one. -/
theorem PointsBelow.mono {a b : Nat} (h : PointsBelow b) (hab : a ≤ b) : PointsBelow a :=
  fun ts hlt => h ts (Nat.lt_of_lt_of_le hlt hab)

/-! ## Brackets -/

section Brackets

variable {close : Symbol} {want : Expectation} {stuck : Stuck}

/-- The reader of an expression in brackets points at the first wrong token. -/
theorem points_enclosed (close : Symbol) (want : Expectation)
    (ih : PointsBelow (ts.length + 1)) :
    Points (fun us => Sticks (enclosed close want us)) (StartsEnclosed close) ts := by
  simp only [enclosed]
  refine points_pastNewlines fun before mid hb hts => ?_
  have hlt : mid.length < ts.length + 1 := by
    rw [hts, List.length_append]
    omega
  refine points_andThen ((ih mid hlt .assignment).mono ?_) fun e rest hy => ?_
  · rintro us ⟨more, e, hs⟩
    exact ⟨more ++ [word (.symbol close)], before, us ++ more, [], word (.symbol close), e, hb, hs,
      lineEnds_nil, rfl, by simp⟩
  · obtain ⟨front, rfl, hs, hsettled⟩ := expression_settled hy
    refine ⟨front, rfl, hsettled, points_pastNewlines fun after last ha _ => ?_⟩
    refine Points.congr (fun us stuck => sticks_map) (points_take want ?_)
    exact ⟨[word (.symbol close)], before, front, after, word (.symbol close), e, hb, hs, ha, rfl,
      by simp⟩

/-- The reader of what follows an item points at the first wrong token, if the one of the items
after a comma does. -/
theorem points_moreItems (close : Symbol) (want : Expectation) {front after : List Token}
    (hs : Spells (.one .assignment e) front) (ha : LineEnds after)
    (hrec : ∀ t tail, ts = t :: tail →
      Points (fun us => Sticks (someItems close want us)) (StartsSomeItems close) tail) :
    Points (fun us => Sticks (moreItems close want e us))
      (fun us => StartsSomeItems close (front ++ (after ++ us))) ts := by
  -- With the closing symbol the items end behind the last expression.
  have hended : StartsSomeItems close (front ++ (after ++ [])) :=
    ⟨[word (.symbol close)], [] ++ (front ++ after), word (.symbol close), e, [],
      .last lineEnds_nil hs ha, rfl, by simp⟩
  cases ts with
  | nil => exact points_nil (.expected want) hended fun stuck => by rw [moreItems, sticks_error]
  | cons t tail =>
    by_cases hcomma : t.isSymbol .comma
    · have hkind : t.kind = .symbol .comma := by simpa [isSymbol] using hcomma
      refine points_behind (fun us stuck => ?_) ((hrec t tail rfl).mono ?_)
      · rw [moreItems, if_pos hcomma, sticks_behind, sticks_map]
      · rintro us ⟨more, inner, closing, next, es, hitems, hc, heq⟩
        exact ⟨more, [] ++ (front ++ (after ++ t :: inner)), closing, e, next :: es,
          .more lineEnds_nil hs ha hkind hitems, hc, by simp [heq]⟩
    by_cases hclose : t.isSymbol close
    · refine points_of_not fun stuck hstuck => ?_
      rw [moreItems, if_neg hcomma, if_pos hclose] at hstuck
      exact not_sticks_token hstuck
    · exact points_cons (.expected want) hended fun us stuck => by
        rw [moreItems, if_neg hcomma, if_neg hclose, sticks_error]

/-- More line ends may stand in front of some expressions. -/
theorem spells_many_lineEnds {before : List Token} {es : List Expr} (hb : LineEnds before)
    (h : Spells (.many es) ts) : Spells (.many es) (before ++ ts) := by
  cases h with
  | none blank => exact .none (hb.append blank)
  | last hbefore item hafter =>
    rw [← List.append_assoc]
    exact .last (hb.append hbefore) item hafter
  | more hbefore item hafter divided rest =>
    rw [← List.append_assoc]
    exact .more (hb.append hbefore) item hafter divided rest

/-- Line ends may stand before what can be completed to at least one item. -/
theorem StartsSomeItems.lineEnds {before : List Token} (hb : LineEnds before)
    (h : StartsSomeItems close ts) : StartsSomeItems close (before ++ ts) := by
  obtain ⟨more, inner, closing, e, es, hitems, hc, heq⟩ := h
  exact ⟨more, before ++ inner, closing, e, es, spells_many_lineEnds hb hitems, hc, by simp [heq]⟩

/-- The reader of at least one item points at the first wrong token. -/
theorem points_someItems (close : Symbol) (want : Expectation)
    (ih : PointsBelow (ts.length + 1)) :
    Points (fun us => Sticks (someItems close want us)) (StartsSomeItems close) ts := by
  -- The induction is on the number of tokens: the items after a comma are fewer tokens.
  induction hn : ts.length using Nat.strongRecOn generalizing ts with
  | ind n hrec =>
    subst hn
    simp only [someItems]
    refine points_pastNewlines fun before mid hb hts => ?_
    have hlt : mid.length < ts.length + 1 := by
      rw [hts, List.length_append]
      omega
    refine points_andThen ((ih mid hlt .assignment).mono ?_) fun e rest hy => ?_
    · rintro us ⟨more, e, hs⟩
      exact ⟨more ++ [word (.symbol close)], before ++ ((us ++ more) ++ []), word (.symbol close),
        e, [], .last hb hs lineEnds_nil, rfl, by simp⟩
    · obtain ⟨front, rfl, hs, hsettled⟩ := expression_settled hy
      refine ⟨front, rfl, hsettled, points_pastNewlines fun after last ha hlast => ?_⟩
      refine (points_moreItems close want hs ha fun t tail htail => ?_).mono
        fun us hus => hus.lineEnds hb
      have hlt : tail.length < ts.length := by
        rw [hts, hlast, htail]
        simp only [List.length_append, List.length_cons]
        omega
      exact hrec _ hlt (ih.mono (by omega)) rfl

/-- The reader of items points at the first wrong token. -/
theorem points_items (close : Symbol) (want : Expectation)
    (ih : PointsBelow (ts.length + 1)) :
    Points (fun us => Sticks (items close want us)) (StartsItems close) ts := by
  simp only [items]
  refine points_ifNext (fun us stuck => sticks_skipNewlines) (fun us stuck => ?_)
    (fun before t after _ _ ht => ?_) fun before mid hb hts => ?_
  · rw [someItems, someItems]
    exact sticks_skipNewlines
  · exact points_of_not fun stuck => not_sticks_takeSymbol ht
  · have hle : mid.length + 1 ≤ ts.length + 1 := by
      rw [hts, List.length_append]
      omega
    refine (points_someItems close want (ih.mono hle)).mono fun us hus => ?_
    obtain ⟨more, inner, closing, e, es, hitems, hc, heq⟩ := hus.lineEnds hb
    exact ⟨more, inner, closing, e :: es, hitems, hc, heq⟩

/-- Items that are read up to a closing bracket are so whatever follows it. -/
theorem items_settled {es : List Expr} {last : Span}
    (hclose : close = .closeParen ∨ close = .closeBracket)
    (h : Yields (items close want ts) (es, last) rest) :
    ∃ inner closing, ts = inner ++ [closing] ++ rest ∧ Spells (.many es) inner ∧
      closing.kind = .symbol close ∧ closing.span = last ∧
      Settled (items close want) (es, last) (inner ++ [closing]) rest := by
  obtain ⟨inner, closing, hs, hc, rfl, rfl⟩ :=
    spells_of_yields_items (fun us _ level => sound us level) h
  refine ⟨inner, closing, by simp, hs, hc, rfl, fun rest' _ => ?_⟩
  rw [List.append_assoc]
  exact (phraseReads_of_spells hs close want closing rest' ⟨hc, hclose⟩).1

/-- An expression that is read with a closing bracket is so whatever follows it. -/
theorem enclosed_settled {last : Span} (hclose : close = .closeParen ∨ close = .closeBracket)
    (h : Yields (enclosed close want ts) (e, last) rest) :
    ∃ before inner after closing, ts = before ++ (inner ++ (after ++ [closing])) ++ rest ∧
      LineEnds before ∧ Spells (.one .assignment e) inner ∧ LineEnds after ∧
      closing.kind = .symbol close ∧ closing.span = last ∧
      Settled (enclosed close want) (e, last) (before ++ (inner ++ (after ++ [closing]))) rest := by
  obtain ⟨before, inner, after, closing, hb, hs, ha, hc, rfl, rfl⟩ :=
    spells_of_yields_enclosed (fun us _ level => sound us level) h
  refine ⟨before, inner, after, closing, by simp, hb, hs, ha, hc, rfl, fun rest' _ => ?_⟩
  have hts : before ++ (inner ++ (after ++ [closing])) ++ rest' =
      before ++ (inner ++ (after ++ closing :: rest')) := by simp
  rw [hts]
  exact yields_enclosed ⟨hc, hclose⟩ hs (fun _ => yields_of_spells hs) hb ha want

end Brackets

/-! ## From the tightest level to the loosest -/

/-- A primary expression without brackets is one token. -/
theorem primary_of_not_opening {t : Token} (hparen : t.kind ≠ .symbol .openParen)
    (hbracket : t.kind ≠ .symbol .openBracket) :
    primary (t :: ts) = match t.atom? with
      | some e => .token e t ts
      | none => .error ⟨.expression, t :: ts⟩ := by
  rw [primary.eq_def]
  unfold atom?
  dsimp only
  split <;> simp_all

/-- The reader of primary expressions points at the first wrong token. -/
theorem points_primary (ih : PointsBelow ts.length) : PointsAt .primary ts := by
  show Points (fun us => Sticks (primary us)) (Starts .primary) ts
  have hempty := starts_nil .primary
  cases ts with
  | nil => exact points_nil .expression hempty fun stuck => by rw [primary, sticks_error]
  | cons t after =>
    -- The two forms with brackets can be stuck inside; a single token is read or is wrong.
    by_cases hparen : t.kind = .symbol .openParen
    · refine points_behind (fun us stuck => ?_)
        ((points_enclosed .closeParen .parenAfterExpression ih).mono ?_)
      · rw [primary.eq_def]
        simp only [hparen, sticks_behind, sticks_map]
      · rintro us ⟨more, before, inner, behind, closing, e, hb, hs, ha, hc, heq⟩
        refine ⟨more, e, ?_⟩
        rw [List.cons_append, heq]
        exact .paren hparen hb hs ha hc
    by_cases hbracket : t.kind = .symbol .openBracket
    · refine points_behind (fun us stuck => ?_)
        ((points_items .closeBracket .bracketAfterElements ih).mono ?_)
      · rw [primary.eq_def]
        simp only [hbracket, sticks_behind, sticks_map]
      · rintro us ⟨more, inner, closing, es, hs, hc, heq⟩
        refine ⟨more, .array es (t.span.through closing.span), ?_⟩
        rw [List.cons_append, heq]
        exact .array hbracket hs hc
    cases hatom : t.atom? with
    | some e =>
      refine points_of_not fun stuck hstuck => ?_
      rw [primary_of_not_opening hparen hbracket, hatom] at hstuck
      exact not_sticks_token hstuck
    | none =>
      refine points_cons .expression hempty fun us stuck => ?_
      rw [primary_of_not_opening hparen hbracket, hatom]
      exact sticks_error

/-- The reader of a suffix and of those behind it points at the first wrong token, if the reader of
the suffix does and what it yields makes a longer expression, with whose suffixes it goes on. -/
theorem points_suffix {β : Type} {part : (us : List Token) → Reading β us} (make : β → Expr)
    {t : Token} {after es : List Token}
    (hread : ∀ us, suffixes e (t :: us) =
      .behind t ((part us).andMaybe fun found mid _ => suffixes (make found) mid))
    (hpart : Points (fun us => Sticks (part us)) (fun us => Starts .suffix (es ++ t :: us)) after)
    (hmade : ∀ found mid, Yields (part after) found mid → ∃ front, after = front ++ mid ∧
      Settled part found front mid ∧ Spells (.one .suffix (make found)) (es ++ t :: front))
    (hrec : ∀ mid, mid.length < after.length → ∀ longer us, Spells (.one .suffix longer) us →
      Points (fun vs => Sticks (suffixes longer vs)) (fun vs => Starts .suffix (us ++ vs)) mid) :
    Points (fun us => Sticks (suffixes e us)) (fun us => Starts .suffix (es ++ us))
      (t :: after) := by
  refine points_behind (fun us stuck => by rw [hread, sticks_loose_behind])
    (points_andMaybe hpart fun found mid hy => ?_)
  obtain ⟨front, hfront, hsettled, hspells⟩ := hmade found mid hy
  refine ⟨front, hfront, hsettled, (hrec mid hy.shorter _ _ hspells).mono fun us hus => ?_⟩
  simpa using hus

/-- The reader of suffixes points at the first wrong token. -/
theorem points_suffixes {es : List Token} (ih : PointsBelow ts.length)
    (hs : Spells (.one .suffix e) es) :
    Points (fun us => Sticks (suffixes e us)) (fun us => Starts .suffix (es ++ us)) ts := by
  -- The induction is on the number of tokens: what stands behind a suffix is fewer tokens.
  induction hn : ts.length using Nat.strongRecOn generalizing ts e es with
  | ind n hrec =>
    subst hn
    cases ts with
    | nil =>
      refine points_of_not fun stuck hstuck => ?_
      rw [suffixes] at hstuck
      exact not_sticks_nothing hstuck
    | cons t after =>
      have hbehind (mid : List Token) (hlt : mid.length < after.length) (longer : Expr)
          (us : List Token) (hspells : Spells (.one .suffix longer) us) :
          Points (fun vs => Sticks (suffixes longer vs)) (fun vs => Starts .suffix (us ++ vs))
            mid :=
        hrec _ (Nat.lt_succ_of_lt hlt) (ih.mono (Nat.le_succ_of_le (Nat.le_of_lt hlt))) hspells rfl
      by_cases hparen : t.kind = .symbol .openParen
      · refine points_suffix (fun found => e.called found.1 (e.span.through found.2))
          (fun us => by rw [suffixes.eq_def]; simp only [hparen])
          ((points_items .closeParen .parenAfterArguments ih).mono ?_) ?_ hbehind
        · rintro us ⟨more, inner, closing, args, hargs, hc, heq⟩
          refine ⟨more, e.called args (e.span.through closing.span), ?_⟩
          rw [List.append_assoc, List.cons_append, heq]
          exact .call (Level.le_refl _) hs hparen hargs hc
        · rintro ⟨args, last⟩ mid hy
          obtain ⟨inner, closing, rfl, hargs, hc, rfl, hsettled⟩ := items_settled (.inl rfl) hy
          exact ⟨inner ++ [closing], rfl, hsettled,
            .call (Level.le_refl .suffix) hs hparen hargs hc⟩
      by_cases hdot : t.kind = .symbol .dot
      · refine points_suffix (fun found => .member e found.1 (e.span.through found.2))
          (fun us => by rw [suffixes.eq_def]; simp only [hdot])
          (points_takeName .memberName ?_) ?_ hbehind
        · exact ⟨[word (.name "")], _, by
            simpa using .member (Level.le_refl _) hs hdot (word_kind (.name ""))⟩
        · rintro ⟨name, last⟩ mid hy
          obtain ⟨label, rfl, hname, rfl⟩ := yields_takeName.1 hy
          exact ⟨[label], rfl, fun mid' _ => yields_takeName.2 ⟨label, rfl, hname, rfl⟩,
            .member (Level.le_refl _) hs hdot hname⟩
      by_cases hbracket : t.kind = .symbol .openBracket
      · refine points_suffix (fun found => .index e found.1 (e.span.through found.2))
          (fun us => by rw [suffixes.eq_def]; simp only [hbracket])
          ((points_enclosed .closeBracket .bracketAfterIndex ih).mono ?_) ?_ hbehind
        · rintro us ⟨more, before, inner, behind, closing, position, hb, hp, ha, hc, heq⟩
          refine ⟨more, .index e position (e.span.through closing.span), ?_⟩
          rw [List.append_assoc, List.cons_append, heq]
          exact .index (Level.le_refl _) hs hbracket hb hp ha hc
        · rintro ⟨position, last⟩ mid hy
          obtain ⟨before, inner, behind, closing, rfl, hb, hp, ha, hc, rfl, hsettled⟩ :=
            enclosed_settled (.inr rfl) hy
          exact ⟨before ++ (inner ++ (behind ++ [closing])), rfl, hsettled,
            .index (Level.le_refl _) hs hbracket hb hp ha hc⟩
      · refine points_of_not fun stuck hstuck => ?_
        rw [suffixes.eq_def] at hstuck
        dsimp only at hstuck
        split at hstuck
        · rename_i hk
          exact hparen hk
        · rename_i hk
          exact hdot hk
        · rename_i hk
          exact hbracket hk
        · exact not_sticks_nothing hstuck

/-- The reader of a level reads at the next one and goes on with what may follow. -/
theorem atLevel_eq (hu : level ≠ .unary) (hp : level ≠ .primary) :
    atLevel level ts = (atLevel level.next ts).andMaybe fun e mid _ => more level e mid := by
  cases level with
  | assignment =>
    show expression ts = _
    rw [expression]
    rfl
  | disjunction | conjunction | equality | comparison | sum | product =>
    show chain (_ :: _) ts = _
    rw [chain]
    rfl
  | power =>
    show chain [] ts = _
    rw [chain, power]
    rfl
  | suffix => rfl
  | unary => exact absurd rfl hu
  | primary => exact absurd rfl hp

/-- The reader of a level points at the first wrong token if that of the next one does, and if that
of what may follow does behind every expression of the next level. -/
theorem points_atLevel (hu : level ≠ .unary) (hp : level ≠ .primary)
    (hnext : PointsAt level.next ts)
    (hmore : ∀ e front mid, Spells (.one level.next e) front → mid.length < ts.length →
      Points (fun us => Sticks (more level e us)) (fun us => Starts level (front ++ us)) mid) :
    PointsAt level ts := by
  refine Points.congr (fun us stuck => by rw [atLevel_eq hu hp])
    (points_andMaybe (hnext.mono fun us hus => hus.loosen level.le_next) fun e mid hy => ?_)
  obtain ⟨front, hfront, hs, -, hsettled⟩ := atLevel_settled hy
  exact ⟨front, hfront, hsettled, hmore e front mid hs hy.shorter⟩

/-- The reader of primary expressions with suffixes points at the first wrong token. -/
theorem points_suffix_level (ih : PointsBelow ts.length) : PointsAt .suffix ts := by
  refine points_atLevel (by decide) (by decide) (points_primary ih) fun e front mid hs hlt => ?_
  exact points_suffixes (ih.mono (Nat.le_of_lt hlt)) (hs.loosen _ _ rfl _ (by decide))

/-- The reader of unary operators points at the first wrong token. -/
theorem points_unary (ih : PointsBelow ts.length) : PointsAt .unary ts := by
  show Points (fun us => Sticks (unary us)) (Starts .unary) ts
  cases ts with
  | nil => exact points_nil .expression (starts_nil _) fun stuck => by rw [unary, sticks_error]
  | cons t after =>
    cases hop : UnaryOp.ofKind? t.kind with
    | some op =>
      have hk := UnaryOp.ofKind?_eq_some.1 hop
      refine points_behind (fun us stuck => ?_) ((ih after (by simp) .unary).mono ?_)
      · rw [unary, hop]
        exact sticks_behind.trans sticks_map
      · rintro us ⟨more, operand, hs⟩
        exact ⟨more, _, .unary (Level.le_refl _) hk hs⟩
    | none =>
      -- Without an operator in front it is an expression with suffixes.
      refine Points.congr_head (fun us hhead stuck => ?_)
        ((points_suffix_level ih).mono fun us hus => hus.loosen (by decide))
      obtain ⟨after', rfl⟩ := List.head?_eq_some_iff.1 hhead
      rw [unary, hop]
      rfl

/-- The reader of powers points at the first wrong token. -/
theorem points_power (ih : PointsBelow ts.length) : PointsAt .power ts := by
  refine points_atLevel (by decide) (by decide) (points_unary ih) fun e front mid hs hlt => ?_
  show Points (fun us => Sticks (exponent e us)) _ mid
  cases mid with
  | nil =>
    refine points_of_not fun stuck hstuck => ?_
    rw [exponent] at hstuck
    exact not_sticks_nothing hstuck
  | cons t after =>
    by_cases hpower : t.isSymbol .power
    · have hk : t.kind = .symbol .power := by simpa [isSymbol] using hpower
      have hafter : after.length < ts.length := by
        rw [List.length_cons] at hlt
        omega
      refine points_behind (fun us stuck => ?_) ((ih after hafter .power).mono ?_)
      · -- The exponent is read at the same level: powers group to the right.
        show _ ↔ Sticks (chain [] us) stuck
        rw [exponent, if_pos hpower, sticks_loose_behind, sticks_map, chain]
      · rintro us ⟨more, right, hright⟩
        refine ⟨more, (Joint.binary .pow).join e right, ?_⟩
        rw [List.append_assoc]
        exact .joined (Level.le_refl _) hs hk hright
    · refine points_of_not fun stuck hstuck => ?_
      rw [exponent, if_neg hpower] at hstuck
      exact not_sticks_nothing hstuck

/-- The operands of an operator of a rung stand at its level and at the next one. -/
theorem spells_join {rung : Rung} (hr : level.rung? = some rung) {joint : Joint} {sign : Token}
    (hlevel : joint.level = level) (hk : sign.kind = joint.kind) {left right : Expr}
    {ls rs : List Token} (hl : Spells (.one level left) ls)
    (hright : Spells (.one level.next right) rs) :
    Spells (.one level (joint.join left right)) (ls ++ sign :: rs) := by
  have hp : joint ≠ .binary .pow := by
    rintro rfl
    subst hlevel
    cases hr
  subst hlevel
  refine .joined (Level.le_refl _) ?_ hk ?_
  · rw [Joint.leftLevel, if_neg hp]
    exact hl
  · rw [Joint.rightLevel, if_neg hp]
    exact hright

/-- The reader of what follows an operand of a rung points at the first wrong token. -/
theorem points_chainRest {rung : Rung} (hr : level.rung? = some rung) {es : List Token}
    (ih : PointsBelow ts.length) (hs : Spells (.one level e) es) :
    Points (fun us => Sticks (chainRest rung level.next.rungs e us))
      (fun us => Starts level (es ++ us)) ts := by
  -- The induction is on the number of tokens: what stands behind an operand is fewer tokens.
  induction hn : ts.length using Nat.strongRecOn generalizing ts e es with
  | ind n hrec =>
    subst hn
    cases ts with
    | nil =>
      refine points_of_not fun stuck hstuck => ?_
      rw [chainRest] at hstuck
      exact not_sticks_nothing hstuck
    | cons t after =>
      cases hj : rung.joint? t.kind with
      | none =>
        refine points_of_not fun stuck hstuck => ?_
        rw [chainRest, hj] at hstuck
        exact not_sticks_nothing hstuck
      | some joint =>
        obtain ⟨hk, hlevel⟩ := Level.joint?_eq_some.1 hj
        rw [← Level.rung?_eq_some.1 hr] at hlevel
        have hread (us : List Token) : chainRest rung level.next.rungs e (t :: us) =
            .behind t ((atLevel level.next us).andMaybe fun right mid _ =>
              chainRest rung level.next.rungs (joint.join e right) mid) := by
          rw [chainRest, hj, atLevel_next_of_rung hr]
        refine points_behind (fun us stuck => by rw [hread, sticks_loose_behind])
          (points_andMaybe ((ih after (by simp) level.next).mono ?_) fun right mid hy => ?_)
        · rintro us ⟨more, right, hright⟩
          refine ⟨more, joint.join e right, ?_⟩
          rw [List.append_assoc]
          exact spells_join hr hlevel hk hs hright
        · obtain ⟨front, hfront, hright, -, hsettled⟩ := atLevel_settled hy
          have hlt : mid.length < (t :: after).length := Nat.lt_succ_of_lt hy.shorter
          refine ⟨front, hfront, hsettled, ?_⟩
          -- What is joined so far is the left operand of what follows: rungs group to the left.
          have hjoined := spells_join hr hlevel hk hs hright
          refine (hrec _ hlt (ih.mono (Nat.le_of_lt hlt)) hjoined rfl).mono fun us hus => ?_
          simpa using hus

/-- The reader of a rung points at the first wrong token if that of its operands does. -/
theorem points_rung {rung : Rung} (hr : level.rung? = some rung) (ih : PointsBelow ts.length)
    (hnext : PointsAt level.next ts) : PointsAt level ts := by
  have hu : level ≠ .unary := by
    rintro rfl
    cases hr
  have hp : level ≠ .primary := by
    rintro rfl
    cases hr
  refine points_atLevel hu hp hnext fun e front mid hs hlt => ?_
  refine Points.congr (fun us stuck => by rw [more_of_rung hr])
    (points_chainRest hr (ih.mono (Nat.le_of_lt hlt)) (hs.loosen _ _ rfl _ level.le_next))

/-- The reader of assignments points at the first wrong token if that of the loosest rung does. -/
theorem points_assignment (ih : PointsBelow ts.length) (hnext : PointsAt .disjunction ts) :
    PointsAt .assignment ts := by
  refine points_atLevel (by decide) (by decide) hnext fun e front mid hs hlt => ?_
  show Points (fun us => Sticks (assignment e us)) _ mid
  cases mid with
  | nil =>
    refine points_of_not fun stuck hstuck => ?_
    rw [assignment] at hstuck
    exact not_sticks_nothing hstuck
  | cons t after =>
    by_cases hassign : t.isSymbol .assign
    · have hk : t.kind = .symbol .assign := by simpa [isSymbol] using hassign
      by_cases hname : ∃ name span, e = .name name span
      · obtain ⟨name, span, rfl⟩ := hname
        have hafter : after.length < ts.length := by
          rw [List.length_cons] at hlt
          omega
        refine points_behind (fun us stuck => ?_) ((ih after hafter .assignment).mono ?_)
        · rw [assignment.eq_def]
          simp only [hassign, if_true, sticks_loose_behind, sticks_map]
          rfl
        · rintro us ⟨more, value, hvalue⟩
          refine ⟨more, .assign name value (span.through value.span), ?_⟩
          rw [List.append_assoc]
          exact .assign hs hk hvalue
      · -- What stands before the sign is an expression, but none that can be assigned to.
        have hviable : Starts .assignment (front ++ []) := by
          rw [List.append_nil]
          exact starts_of_spells (hs.loosen _ _ rfl _ (by decide))
        refine points_cons .assignmentTarget hviable fun us stuck => ?_
        rw [assignment.eq_def]
        simp only [hassign, if_true]
        split
        · exact absurd ⟨_, _, rfl⟩ hname
        · exact sticks_error
    · refine points_of_not fun stuck hstuck => ?_
      rw [assignment.eq_def] at hstuck
      simp only [hassign] at hstuck
      exact not_sticks_nothing hstuck

/-- The readers of all levels point at the first wrong token. -/
theorem pointsAt (ts : List Token) (level : Level) : PointsAt level ts := by
  induction hn : ts.length using Nat.strongRecOn generalizing ts level with
  | ind n hrec =>
    subst hn
    have ih : PointsBelow ts.length := fun us hlt level => hrec _ hlt us level rfl
    -- On the same tokens each rung points at the first wrong one because the next rung does.
    have product : PointsAt .product ts := points_rung rfl ih (points_power ih)
    have sum : PointsAt .sum ts := points_rung rfl ih product
    have comparison : PointsAt .comparison ts := points_rung rfl ih sum
    have equality : PointsAt .equality ts := points_rung rfl ih comparison
    have conjunction : PointsAt .conjunction ts := points_rung rfl ih equality
    have disjunction : PointsAt .disjunction ts := points_rung rfl ih conjunction
    cases level with
    | assignment => exact points_assignment ih disjunction
    | disjunction => exact disjunction
    | conjunction => exact conjunction
    | equality => exact equality
    | comparison => exact comparison
    | sum => exact sum
    | product => exact product
    | power => exact points_power ih
    | unary => exact points_unary ih
    | suffix => exact points_suffix_level ih
    | primary => exact points_primary ih

end Parser

end QuantumScript
