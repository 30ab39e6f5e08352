import QuantumScript.Proofs.Parser.ExprComplete

/-!
# Every expression that is read is spelled

What a reader of expressions takes from the front of the tokens spells the expression that it
yields, and what it leaves does not go on with it (`spells_of_yields`). Together with
`yields_of_spells` this says exactly when an expression is read (`yields_expression`).

The proof is an induction on the number of tokens. `SoundBelow` is its hypothesis: the readers of
all levels are sound on fewer tokens. From it follow, from the tightest level to the loosest, the
facts about the same tokens.
-/

namespace QuantumScript.Parser

open Token Reading Grammar

variable {level : Level} {ts rest : List Token} {e : Expr}

/-- What the reader of a level takes spells what it yields, and what it leaves does not go on. -/
def Sound (level : Level) (ts : List Token) : Prop :=
  ∀ e rest, Yields (atLevel level ts) e rest →
    ∃ used, ts = used ++ rest ∧ Spells (.one level e) used ∧ Stops level rest

/-- The readers of all levels are sound on fewer than so many tokens. -/
def SoundBelow (count : Nat) : Prop :=
  ∀ ts : List Token, ts.length < count → ∀ level, Sound level ts

/-- Readers that are sound below a count are so below a smaller one. -/
theorem SoundBelow.mono {a b : Nat} (h : SoundBelow b) (hab : a ≤ b) : SoundBelow a :=
  fun ts hlt => h ts (Nat.lt_of_lt_of_le hlt hab)

/-- The line ends in front of some tokens. -/
theorem exists_lineEnds (ts : List Token) :
    ∃ before, LineEnds before ∧ ts = before ++ skipNewlines ts :=
  ⟨ts.takeWhile isNewline, List.all_eq_true.1 List.all_takeWhile,
    List.takeWhile_append_dropWhile.symm⟩

/-! ## Brackets -/

/-- What is read between brackets. -/
theorem spells_of_yields_enclosed {close : Symbol} {want : Expectation} {last : Span}
    (ih : SoundBelow (ts.length + 1)) (h : Yields (enclosed close want ts) (e, last) rest) :
    ∃ before used after closing, LineEnds before ∧ Spells (.one .assignment e) used ∧
      LineEnds after ∧ closing.kind = .symbol close ∧ closing.span = last ∧
      ts = before ++ (used ++ (after ++ closing :: rest)) := by
  rw [enclosed, yields_pastNewlines, yields_andThen] at h
  obtain ⟨a, mid, ha, h⟩ := h
  rw [yields_pastNewlines, yields_map] at h
  obtain ⟨closing, hc, heq⟩ := h
  cases heq
  rw [yields_takeSymbol] at hc
  have hle := length_skipNewlines_le ts
  -- The bracket ends the expression, so what is known of the tokens left is not needed.
  obtain ⟨used, hused, hspells, -⟩ := ih _ (by omega) .assignment e mid ha
  obtain ⟨before, hb, hbefore⟩ := exists_lineEnds ts
  obtain ⟨after, haf, hafter⟩ := exists_lineEnds mid
  refine ⟨before, used, after, closing, hb, hspells, haf, hc.2, rfl, ?_⟩
  rw [← hc.1, ← hafter, ← hused]
  exact hbefore

/-- What is read up to a closing bracket, at least one item. -/
theorem spells_of_yields_someItems {close : Symbol} {want : Expectation} {es : List Expr}
    {last : Span} (ih : SoundBelow (ts.length + 1))
    (h : Yields (someItems close want ts) (es, last) rest) :
    es ≠ [] ∧ ∃ used closing, Spells (.many es) used ∧ closing.kind = .symbol close ∧
      closing.span = last ∧ ts = used ++ closing :: rest := by
  -- The induction is on the number of tokens: the items after a comma are fewer tokens.
  induction hn : ts.length using Nat.strongRecOn generalizing ts es with
  | ind n hrec =>
    subst hn
    rw [someItems, yields_pastNewlines, yields_andThen] at h
    obtain ⟨item, mid, hi, h⟩ := h
    rw [yields_pastNewlines] at h
    have hle := length_skipNewlines_le ts
    obtain ⟨used, hused, hspells, -⟩ := ih _ (by omega) .assignment item mid hi
    obtain ⟨before, hb, hbefore⟩ := exists_lineEnds ts
    obtain ⟨after, ha, hafter⟩ := exists_lineEnds mid
    have hlt : mid.length < ts.length := Nat.lt_of_lt_of_le hi.shorter hle
    have hle' := length_skipNewlines_le mid
    generalize hm : skipNewlines mid = us at h hafter hle'
    cases us with
    | nil =>
      rw [moreItems] at h
      exact absurd h yields_error
    | cons t tail =>
      rw [hused, hafter] at hbefore
      rw [moreItems] at h
      split at h
      · rename_i hcomma
        rw [yields_behind, yields_map] at h
        obtain ⟨⟨others, stop⟩, ho, heq⟩ := h
        cases heq
        have htail : tail.length < ts.length := by
          rw [List.length_cons] at hle'
          omega
        obtain ⟨hne, rested, closing, hrest, hc, hlast, rfl⟩ :=
          hrec _ htail (ih.mono (by omega)) ho rfl
        -- Behind a comma at least one item is read, as its spelling asks for.
        cases others with
        | nil => exact absurd rfl hne
        | cons next others =>
          refine ⟨by simp, before ++ (used ++ (after ++ t :: rested)), closing, ?_, hc, hlast, ?_⟩
          · exact .more hb hspells ha (by simpa [isSymbol] using hcomma) hrest
          · rw [hbefore]
            simp
      · split at h
        · rename_i hclose
          rw [yields_token] at h
          obtain ⟨heq, rfl⟩ := h
          cases heq
          refine ⟨by simp, before ++ (used ++ after), t, .last hb hspells ha, ?_, rfl, ?_⟩
          · simpa [isSymbol] using hclose
          · rw [hbefore]
            simp
        · exact absurd h yields_error

/-- What is read up to a closing bracket. -/
theorem spells_of_yields_items {close : Symbol} {want : Expectation} {es : List Expr}
    {last : Span} (ih : SoundBelow (ts.length + 1))
    (h : Yields (items close want ts) (es, last) rest) :
    ∃ used closing, Spells (.many es) used ∧ closing.kind = .symbol close ∧
      closing.span = last ∧ ts = used ++ closing :: rest := by
  rw [items] at h
  split at h
  · rw [yields_pastNewlines, yields_map] at h
    obtain ⟨closing, hc, heq⟩ := h
    cases heq
    rw [yields_takeSymbol] at hc
    obtain ⟨before, hb, hbefore⟩ := exists_lineEnds ts
    refine ⟨before, closing, .none hb, hc.2, rfl, ?_⟩
    rw [← hc.1]
    exact hbefore
  · exact (spells_of_yields_someItems ih h).2

/-! ## From the tightest level to the loosest -/

/-- The reader of primary expressions is sound. -/
theorem sound_primary (ih : SoundBelow ts.length) : Sound .primary ts := by
  intro e rest h
  -- No link is tighter than a primary expression, so nothing goes on with one.
  have hstop : Stops .primary rest := by
    intro t _ link hl
    unfold Token.Kind.link? at hl
    split at hl <;> cases hl <;> decide
  have h : Yields (primary ts) e rest := h
  cases ts with
  | nil =>
    rw [primary] at h
    exact absurd h yields_error
  | cons t after =>
    rw [primary.eq_def] at h
    dsimp only at h
    split at h
    -- The two forms with brackets come first; the others are single tokens.
    case h_7 hk =>
      rw [yields_behind, yields_map] at h
      obtain ⟨⟨a, last⟩, ha, rfl⟩ := h
      obtain ⟨before, used, behind, closing, hb, hs, hbehind, hc, -, rfl⟩ :=
        spells_of_yields_enclosed ih ha
      exact ⟨t :: (before ++ (used ++ (behind ++ [closing]))), by simp,
        .paren hk hb hs hbehind hc, hstop⟩
    case h_8 hk =>
      rw [yields_behind, yields_map] at h
      obtain ⟨⟨es, last⟩, ha, rfl⟩ := h
      obtain ⟨used, closing, hs, hc, rfl, rfl⟩ := spells_of_yields_items ih ha
      exact ⟨t :: (used ++ [closing]), by simp, .array hk hs hc, hstop⟩
    case h_9 => exact absurd h yields_error
    all_goals
      rename_i hk
      rw [yields_token] at h
      obtain ⟨rfl, rfl⟩ := h
      exact ⟨[t], rfl, .atom (by simp [atom?, hk]), hstop⟩

/-- The reader of suffixes is sound. -/
theorem spells_of_yields_suffixes {whole : Expr} {es : List Token} (ih : SoundBelow ts.length)
    (hs : Spells (.one .suffix e) es) (h : Yields (suffixes e ts) whole rest) :
    ∃ used, ts = used ++ rest ∧ Spells (.one .suffix whole) (es ++ used) ∧ Stops .suffix rest := by
  -- The induction is on the number of tokens: what stands behind a suffix is fewer tokens.
  induction hn : ts.length using Nat.strongRecOn generalizing ts e es with
  | ind n hrec =>
    subst hn
    cases ts with
    | nil =>
      rw [suffixes, yields_nothing] at h
      obtain ⟨rfl, rfl⟩ := h
      exact ⟨[], rfl, by simpa using hs, stops_nil _⟩
    | cons t after =>
      rw [suffixes.eq_def] at h
      dsimp only at h
      split at h
      -- Each suffix makes a longer spelling, with which the induction goes on behind it.
      · rename_i hk
        rw [yields_loose_behind, yields_andMaybe] at h
        obtain ⟨⟨args, last⟩, mid, ha, h⟩ := h
        have hlt : mid.length < (t :: after).length := Nat.lt_succ_of_lt ha.shorter
        obtain ⟨used, closing, hargs, hc, rfl, rfl⟩ := spells_of_yields_items ih ha
        obtain ⟨more, rfl, hmore, hstop⟩ := hrec _ hlt (ih.mono (Nat.le_of_lt hlt))
          (.call (Level.le_refl _) hs hk hargs hc) h rfl
        exact ⟨t :: (used ++ closing :: more), by simp, by simpa using hmore, hstop⟩
      · rename_i hk
        rw [yields_loose_behind, yields_andMaybe] at h
        obtain ⟨⟨name, last⟩, mid, ha, h⟩ := h
        have hlt : mid.length < (t :: after).length := Nat.lt_succ_of_lt ha.shorter
        obtain ⟨label, rfl, hname, rfl⟩ := yields_takeName.1 ha
        obtain ⟨more, rfl, hmore, hstop⟩ := hrec _ hlt (ih.mono (Nat.le_of_lt hlt))
          (.member (Level.le_refl _) hs hk hname) h rfl
        exact ⟨t :: label :: more, by simp, by simpa using hmore, hstop⟩
      · rename_i hk
        rw [yields_loose_behind, yields_andMaybe] at h
        obtain ⟨⟨position, last⟩, mid, ha, h⟩ := h
        have hlt : mid.length < (t :: after).length := Nat.lt_succ_of_lt ha.shorter
        obtain ⟨before, used, behind, closing, hb, hp, hbehind, hc, rfl, rfl⟩ :=
          spells_of_yields_enclosed ih ha
        obtain ⟨more, rfl, hmore, hstop⟩ := hrec _ hlt (ih.mono (Nat.le_of_lt hlt))
          (.index (Level.le_refl _) hs hk hb hp hbehind hc) h rfl
        exact ⟨t :: (before ++ (used ++ (behind ++ closing :: more))), by simp,
          by simpa using hmore, hstop⟩
      · rename_i hparen hdot hbracket
        rw [yields_nothing] at h
        obtain ⟨rfl, rfl⟩ := h
        refine ⟨[], rfl, by simpa using hs, ?_⟩
        -- A token that is none of the three links at a looser level, if at all.
        rw [stops_cons]
        intro link hl
        unfold Token.Kind.link? at hl
        split at hl <;> cases hl <;> first | decide | (rename_i hk; simp_all)

/-- The reader of primary expressions with suffixes is sound. -/
theorem sound_suffix (ih : SoundBelow ts.length) : Sound .suffix ts := by
  intro e rest h
  rw [yields_atLevel (by decide) (by decide)] at h
  obtain ⟨a, mid, ha, h⟩ := h
  have hlt := ha.shorter
  obtain ⟨first, rfl, hfirst, -⟩ := sound_primary ih a mid ha
  have hs : Spells (.one .suffix a) first := hfirst.loosen _ _ rfl _ (by decide)
  obtain ⟨second, rfl, hwhole, hstop⟩ :=
    spells_of_yields_suffixes (ih.mono (Nat.le_of_lt hlt)) hs h
  exact ⟨first ++ second, by simp, hwhole, hstop⟩

/-- The reader of unary operators is sound. -/
theorem sound_unary (ih : SoundBelow ts.length) : Sound .unary ts := by
  intro e rest h
  have h : Yields (unary ts) e rest := h
  cases ts with
  | nil =>
    rw [unary] at h
    exact absurd h yields_error
  | cons t after =>
    cases hop : UnaryOp.ofKind? t.kind with
    | some op =>
      have hk := UnaryOp.ofKind?_eq_some.1 hop
      rw [yields_unary_signed hk] at h
      obtain ⟨operand, ho, rfl⟩ := h
      obtain ⟨used, rfl, hs, hstop⟩ := ih after (by simp) .unary operand rest ho
      exact ⟨t :: used, by simp, .unary (Level.le_refl _) hk hs, hstop⟩
    | none =>
      rw [yields_unary_plain hop] at h
      obtain ⟨used, hused, hs, hstop⟩ := sound_suffix ih e rest h
      refine ⟨used, hused, hs.loosen _ _ rfl _ (by decide), fun u hu link hl => ?_⟩
      -- No token links at the level of the unary operators themselves.
      have := hstop u hu link hl
      unfold Token.Kind.link? at hl
      split at hl <;> cases hl <;> first | decide | exact absurd this (by decide)

/-- What stops the operands of a level stops the level, unless a token goes on right there. -/
theorem stops_of_next (h : Stops level.next ts)
    (hne : ∀ t ∈ ts.head?, t.kind.link? ≠ some level) : Stops level ts := by
  intro t ht link hl
  have hlt := h t ht link hl
  have hneq : link ≠ level := by
    rintro rfl
    exact hne t ht hl
  revert hlt hneq
  cases link <;> cases level <;> decide

/-- The reader of powers is sound. -/
theorem sound_power (ih : SoundBelow ts.length) : Sound .power ts := by
  intro e rest h
  rw [yields_atLevel (by decide) (by decide)] at h
  obtain ⟨a, mid, ha, h⟩ := h
  have hlt := ha.shorter
  obtain ⟨first, rfl, hfirst, hmid⟩ := sound_unary ih a mid ha
  have hs : Spells (.one .power a) first := hfirst.loosen _ _ rfl _ (by decide)
  have h : Yields (exponent a mid) e rest := h
  cases mid with
  | nil =>
    rw [exponent, yields_nothing] at h
    obtain ⟨rfl, rfl⟩ := h
    exact ⟨first, by simp, hs, stops_nil _⟩
  | cons t after =>
    rw [exponent] at h
    split at h
    · rename_i hk
      have hk : t.kind = .symbol .power := by simpa [isSymbol] using hk
      rw [yields_loose_behind, yields_map] at h
      obtain ⟨right, hr, rfl⟩ := h
      have hr : Yields (atLevel .power after) right rest := by
        simp only [atLevel, Level.rungs]
        rw [chain]
        exact hr
      have hafter : after.length < (first ++ t :: after).length := by simp; omega
      -- The right operand is read at the same level: powers group to the right.
      obtain ⟨used, rfl, hright, hstop⟩ := ih after hafter .power right rest hr
      exact ⟨first ++ t :: used, by simp, .joined (Level.le_refl _) hfirst hk hright, hstop⟩
    · rename_i hk
      rw [yields_nothing] at h
      obtain ⟨rfl, rfl⟩ := h
      refine ⟨first, rfl, hs, stops_of_next hmid ?_⟩
      rintro u ⟨⟩ hl
      unfold Token.Kind.link? at hl
      split at hl <;> cases hl
      rename_i hu
      exact hk (by simp [isSymbol, hu])

/-- The reader of what follows an operand of a rung is sound. -/
theorem spells_of_yields_chainRest {rung : Rung} (hr : level.rung? = some rung) {whole : Expr}
    {es : List Token} (ih : SoundBelow ts.length) (hs : Spells (.one level e) es)
    (hstop : Stops level.next ts)
    (h : Yields (chainRest rung level.next.rungs e ts) whole rest) :
    ∃ used, ts = used ++ rest ∧ Spells (.one level whole) (es ++ used) ∧ Stops level rest := by
  -- The induction is on the number of tokens: what stands behind an operand is fewer tokens.
  induction hn : ts.length using Nat.strongRecOn generalizing ts e es with
  | ind n hrec =>
    subst hn
    cases ts with
    | nil =>
      rw [chainRest, yields_nothing] at h
      obtain ⟨rfl, rfl⟩ := h
      exact ⟨[], rfl, by simpa using hs, stops_nil _⟩
    | cons t after =>
      rw [chainRest.eq_def] at h
      dsimp only at h
      split at h
      · rename_i hj
        rw [yields_nothing] at h
        obtain ⟨rfl, rfl⟩ := h
        refine ⟨[], rfl, by simpa using hs, stops_of_next hstop ?_⟩
        rintro u ⟨⟩ hl
        exact Level.link?_ne_of_joint?_eq_none hr hj hl
      · rename_i joint hj
        obtain ⟨hk, hlevel⟩ := Level.joint?_eq_some.1 hj
        rw [← Level.rung?_eq_some.1 hr] at hlevel
        rw [yields_loose_behind, yields_andMaybe] at h
        obtain ⟨right, mid, hright, h⟩ := h
        have hlt : mid.length < (t :: after).length := Nat.lt_succ_of_lt hright.shorter
        rw [← atLevel_next_of_rung hr] at hright
        obtain ⟨rs, rfl, hrs, hmid⟩ := ih after (by simp) _ right mid hright
        -- What is joined so far is the left operand of what follows: rungs group to the left.
        have hjoined : Spells (.one level (joint.join e right)) (es ++ t :: rs) := by
          have hp : joint ≠ .binary .pow := by
            rintro rfl
            subst hlevel
            cases hr
          subst hlevel
          refine .joined (Level.le_refl _) ?_ hk ?_
          · rw [Joint.leftLevel, if_neg hp]
            exact hs
          · rw [Joint.rightLevel, if_neg hp]
            exact hrs
        obtain ⟨more, rfl, hmore, hstop⟩ :=
          hrec _ hlt (ih.mono (Nat.le_of_lt hlt)) hjoined hmid h rfl
        exact ⟨t :: (rs ++ more), by simp, by simpa using hmore, hstop⟩

/-- The reader of a rung is sound when that of its operands is. -/
theorem sound_rung {rung : Rung} (hr : level.rung? = some rung) (ih : SoundBelow ts.length)
    (hnext : Sound level.next ts) : Sound level ts := by
  have hu : level ≠ .unary := by
    rintro rfl
    cases hr
  have hp : level ≠ .primary := by
    rintro rfl
    cases hr
  intro e rest h
  rw [yields_atLevel hu hp] at h
  obtain ⟨a, mid, ha, h⟩ := h
  have hlt := ha.shorter
  obtain ⟨first, rfl, hfirst, hmid⟩ := hnext a mid ha
  rw [more_of_rung hr] at h
  obtain ⟨second, rfl, hwhole, hstop⟩ := spells_of_yields_chainRest hr (ih.mono (Nat.le_of_lt hlt))
    (hfirst.loosen _ _ rfl _ level.le_next) hmid h
  exact ⟨first ++ second, by simp, hwhole, hstop⟩

/-- The reader of assignments is sound when that of the loosest rung is. -/
theorem sound_assignment (ih : SoundBelow ts.length) (hnext : Sound .disjunction ts) :
    Sound .assignment ts := by
  intro e rest h
  rw [yields_atLevel (by decide) (by decide)] at h
  obtain ⟨a, mid, ha, h⟩ := h
  have hlt := ha.shorter
  obtain ⟨first, rfl, hfirst, hmid⟩ := hnext a mid ha
  have hs : Spells (.one .assignment a) first := hfirst.loosen _ _ rfl _ (by decide)
  have h : Yields (assignment a mid) e rest := h
  cases mid with
  | nil =>
    rw [assignment, yields_nothing] at h
    obtain ⟨rfl, rfl⟩ := h
    exact ⟨first, by simp, hs, stops_nil _⟩
  | cons t after =>
    rw [assignment.eq_def] at h
    dsimp only at h
    split at h
    · rename_i hk
      split at h
      · rename_i target span
        rw [yields_loose_behind, yields_map] at h
        obtain ⟨value, hv, rfl⟩ := h
        have hafter : after.length < (first ++ t :: after).length := by simp; omega
        obtain ⟨used, rfl, hvalue, hstop⟩ := ih after hafter .assignment value rest hv
        exact ⟨first ++ t :: used, by simp,
          .assign hfirst (by simpa [isSymbol] using hk) hvalue, hstop⟩
      · exact absurd h yields_error
    · rename_i hk
      rw [yields_nothing] at h
      obtain ⟨rfl, rfl⟩ := h
      refine ⟨first, rfl, hs, stops_of_next hmid ?_⟩
      rintro u ⟨⟩ hl
      unfold Token.Kind.link? at hl
      split at hl <;> cases hl
      rename_i hu
      exact hk (by simp [isSymbol, hu])

/-- The readers of all levels are sound. -/
theorem sound (ts : List Token) (level : Level) : Sound level ts := by
  induction hn : ts.length using Nat.strongRecOn generalizing ts level with
  | ind n hrec =>
    subst hn
    have ih : SoundBelow ts.length := fun us hlt level => hrec _ hlt us level rfl
    -- On the same tokens each rung is sound because the next tighter one is.
    have product : Sound .product ts := sound_rung rfl ih (sound_power ih)
    have sum : Sound .sum ts := sound_rung rfl ih product
    have comparison : Sound .comparison ts := sound_rung rfl ih sum
    have equality : Sound .equality ts := sound_rung rfl ih comparison
    have conjunction : Sound .conjunction ts := sound_rung rfl ih equality
    have disjunction : Sound .disjunction ts := sound_rung rfl ih conjunction
    cases level with
    | assignment => exact sound_assignment ih disjunction
    | disjunction => exact disjunction
    | conjunction => exact conjunction
    | equality => exact equality
    | comparison => exact comparison
    | sum => exact sum
    | product => exact product
    | power => exact sound_power ih
    | unary => exact sound_unary ih
    | suffix => exact sound_suffix ih
    | primary => exact sound_primary ih

/-- What is read as an expression at a level spells it there, and what is left does not go on. -/
theorem spells_of_yields (h : Yields (atLevel level ts) e rest) :
    ∃ used, ts = used ++ rest ∧ Spells (.one level e) used ∧ Stops level rest :=
  sound ts level e rest h

/-- An expression is read exactly when the tokens taken spell it and those left do not go on. -/
theorem yields_expression :
    Yields (expression ts) e rest ↔
      ∃ used, ts = used ++ rest ∧ Spells (.one .assignment e) used ∧ Stops .assignment rest := by
  constructor
  · intro h
    exact sound ts .assignment e rest h
  · rintro ⟨used, rfl, hs, hstop⟩
    exact yields_of_spells hs hstop

end QuantumScript.Parser
