import QuantumScript.Proofs.Parser.Ladder

/-!
# Every spelled expression is read

An expression spelled at a level is read by the reader of that level, whatever follows that does not
go on with it (`yields_of_spells`).

The proof is an induction over the spelling. For operators that associate to the left, and for
calls, members and indexes, it carries more than that the expression is read: `Opens` says that
reading the tokens of the expression with more behind them is reading on from the expression, which
is how the left operand of a longer chain is read.
-/

namespace QuantumScript.Parser

open Token Reading Grammar

variable {level : Level} {ts rest : List Token} {e : Expr}

/-- The tokens are read as an expression at a level wherever nothing goes on with it. -/
def Reads (level : Level) (e : Expr) (ts : List Token) : Prop :=
  ∀ rest, Stops level rest → Yields (atLevel level (ts ++ rest)) e rest

/-- Reading the tokens with others behind them is reading on from the expression. -/
def Opens (level : Level) (e : Expr) (ts : List Token) : Prop :=
  ∀ rest whole left, Stops level.next rest → Yields (more level e rest) whole left →
    Yields (atLevel level (ts ++ rest)) whole left

/-- The tokens are read as an expression at a level, also as a left operand where the operators of
the level take one of the same level. -/
structure Complete (level : Level) (e : Expr) (ts : List Token) : Prop where
  /-- They are read where nothing goes on. -/
  reads : Reads level e ts
  /-- They are read on from. -/
  opens : level.rung?.isSome ∨ level = .suffix → Opens level e ts

/-! ## From a level to the looser ones -/

/-- What is read on from is read where nothing goes on. -/
theorem Opens.reads (h : Opens level e ts) : Reads level e ts := by
  intro rest hs
  exact h rest e rest (hs.mono level.le_next) (yields_more_of_stops hs)

/-- What is read at the next level is read on from at this one. -/
theorem Reads.opens (h : Reads level.next e ts) (hu : level ≠ .unary) (hp : level ≠ .primary) :
    Opens level e ts := by
  intro rest whole left hs hm
  rw [yields_atLevel hu hp]
  exact ⟨e, rest, h rest hs, hm⟩

/-- A token that starts a plain expression writes no unary operator. -/
theorem ofKind?_of_startsPlain {t : Token} (h : t.startsPlain) : UnaryOp.ofKind? t.kind = none := by
  rw [Option.eq_none_iff_forall_ne_some]
  intro op ho
  rw [UnaryOp.ofKind?_eq_some] at ho
  cases op <;> simp [startsPlain, ho, UnaryOp.kind] at h

/-- What is read at the level of the suffixes is read at that of the unary operators. -/
theorem Reads.unary (hs : Spells (.one .suffix e) ts) (h : Reads .suffix e ts) :
    Reads .unary e ts := by
  obtain ⟨t, us, rfl, -, ht⟩ := hs.startsWith _ _ rfl
  intro rest hr
  have hy := h rest (hr.mono (by decide))
  exact (yields_unary_plain (ofKind?_of_startsPlain (ht (Level.le_refl _)))).2 hy

/-- What is read at the next level is read at this one. -/
theorem Complete.step (hs : Spells (.one level.next e) ts) (h : Complete level.next e ts)
    (hp : level ≠ .primary) : Complete level e ts := by
  by_cases hu : level = .unary
  · subst hu
    exact ⟨Reads.unary hs h.reads, fun h => absurd h (by decide)⟩
  · have ho := h.reads.opens hu hp
    exact ⟨ho.reads, fun _ => ho⟩

/-- What is read at a level is read at every looser one. -/
theorem Complete.loosen {tight : Level} (hs : Spells (.one tight e) ts)
    (h : Complete tight e ts) {loose : Level} (hl : loose ≤ tight) : Complete loose e ts := by
  refine Level.descend (P := fun a => Complete a e ts) h (fun a hp hnext ha => ?_) hl
  exact ha.step (hs.loosen _ _ rfl _ hnext) hp

/-! ## Brackets -/

/-- Line ends and what follows them stop every expression if what follows does. -/
theorem stops_lineEnds {after : List Token} (h : LineEnds after) (hr : Stops level rest) :
    Stops level (after ++ rest) := by
  cases after with
  | nil => exact hr
  | cons t after =>
    have ht : t.kind = .newline := by simpa [isNewline] using h t (by simp)
    exact stops_of_link?_eq_none (by rw [ht]; rfl)

/-- A token closes what one of the brackets of an expression opened. -/
structure Closes (close : Symbol) (closing : Token) : Prop where
  /-- It is the closing symbol. -/
  kind : closing.kind = .symbol close
  /-- The symbol is a parenthesis or a bracket. -/
  sign : close = .closeParen ∨ close = .closeBracket

namespace Closes

variable {close : Symbol} {closing : Token}

/-- A closing symbol goes on with no expression. -/
theorem link? (h : Closes close closing) : closing.kind.link? = none := by
  rw [h.kind]
  rcases h.sign with rfl | rfl <;> rfl

/-- A closing symbol is no line end. -/
theorem isNewline (h : Closes close closing) : closing.isNewline = false := by
  simp [Token.isNewline, h.kind]

/-- A closing symbol is no comma. -/
theorem isComma (h : Closes close closing) : closing.isSymbol .comma = false := by
  simp only [isSymbol, h.kind, decide_eq_false_iff_not]
  rcases h.sign with rfl | rfl <;> decide

/-- No expression starts with a closing symbol. -/
theorem startsExpr {t : Token} (h : Closes close closing) (ht : t.startsExpr) :
    t.isSymbol close = false := by
  simp only [isSymbol, decide_eq_false_iff_not]
  intro hk
  rcases h.sign with rfl | rfl <;> simp [Token.startsExpr, startsPlain, hk] at ht

end Closes

/-- An expression between brackets is read with the closing one. -/
theorem yields_enclosed {close : Symbol} {closing : Token} {before after : List Token}
    (hc : Closes close closing) (hs : Spells (.one .assignment e) ts)
    (h : Reads .assignment e ts) (hb : LineEnds before) (ha : LineEnds after)
    (want : Expectation) :
    Yields (enclosed close want (before ++ (ts ++ (after ++ closing :: rest))))
      (e, closing.span) rest := by
  rw [enclosed, yields_pastNewlines, yields_andThen]
  have he : Yields (expression (ts ++ (after ++ closing :: rest))) e (after ++ closing :: rest) :=
    h _ (stops_lineEnds ha (stops_of_link?_eq_none hc.link?))
  rw [← hs.skipNewlines hb] at he
  refine ⟨e, _, he, ?_⟩
  rw [yields_pastNewlines, yields_map]
  refine ⟨closing, ?_, rfl⟩
  rw [yields_takeSymbol]
  exact ⟨skipNewlines_append ha hc.isNewline, hc.kind⟩

/-- What the tokens of a phrase are read as: an expression at its level, or all items up to a
closing bracket. -/
def PhraseReads : Phrase → List Token → Prop
  | .one level e, ts => Complete level e ts
  | .many es, ts =>
    ∀ close want closing rest, Closes close closing →
      Yields (items close want (ts ++ closing :: rest)) (es, closing.span) rest ∧
        (es ≠ [] → Yields (someItems close want (ts ++ closing :: rest)) (es, closing.span) rest)

/-- A token after an item is read when the tokens after the item's line ends are. -/
theorem yields_someItems {close : Symbol} {want : Expectation} {before after tail : List Token}
    {t : Token} {found : List Expr × Span} (hs : Spells (.one .assignment e) ts)
    (h : Reads .assignment e ts) (hb : LineEnds before) (ha : LineEnds after)
    (hl : t.kind.link? = none) (hn : t.isNewline = false)
    (hm : Yields (moreItems close want e (t :: tail)) found rest) :
    Yields (someItems close want (before ++ (ts ++ (after ++ t :: tail)))) found rest := by
  rw [someItems, yields_pastNewlines, yields_andThen]
  have he : Yields (expression (ts ++ (after ++ t :: tail))) e (after ++ t :: tail) :=
    h _ (stops_lineEnds ha (stops_of_link?_eq_none hl))
  rw [← hs.skipNewlines hb] at he
  refine ⟨e, _, he, ?_⟩
  rw [yields_pastNewlines]
  rw [← skipNewlines_append ha hn] at hm
  exact hm

/-- Where an expression comes first, items are read as at least one. -/
theorem items_eq_someItems {close : Symbol} {closing : Token} {want : Expectation}
    {before : List Token} (hc : Closes close closing) (hs : Spells (.one level e) ts)
    (hb : LineEnds before) (tail : List Token) :
    items close want (before ++ (ts ++ tail)) = someItems close want (before ++ (ts ++ tail)) := by
  obtain ⟨t, us, rfl, ht⟩ := hs.starts
  have hn : nextIs (·.isSymbol close) (before ++ (t :: us ++ tail)) = false := by
    unfold nextIs
    rw [hs.skipNewlines hb]
    exact hc.startsExpr ht
  rw [items, if_neg (by rw [hn]; exact Bool.false_ne_true)]

/-! ## Operators -/

/-- A plain expression at the tightest level is read at every level. -/
theorem complete_primary (hs : Spells (.one .primary e) ts)
    (h : ∀ rest, Yields (primary (ts ++ rest)) e rest) (level : Level) : Complete level e ts :=
  Complete.loosen hs ⟨fun rest _ => h rest, fun h => absurd h (by decide)⟩
    (by cases level <;> decide)

/-- An expression with a suffix is read at every level that it fits. -/
theorem complete_suffix (hs : Spells (.one .suffix e) ts) (h : Opens .suffix e ts)
    (hl : level ≤ .suffix) : Complete level e ts :=
  Complete.loosen hs ⟨h.reads, fun _ => h⟩ hl

/-- A suffix is read on from what it is put to, if the reader of suffixes takes it from there. -/
theorem opens_suffix {object : Expr} {os tail : List Token} {t : Token}
    (ho : Opens .suffix object os) (ht : t.kind.link? = some .suffix)
    (h : ∀ rest whole left, Yields (suffixes e rest) whole left →
      Yields (suffixes object (t :: (tail ++ rest))) whole left) :
    Opens .suffix e (os ++ t :: tail) := by
  intro rest whole left _ hm
  rw [List.append_assoc, List.cons_append]
  refine ho _ _ _ ?_ (h rest whole left hm)
  -- The first token of the suffix goes on with no primary expression.
  rw [stops_cons, ht]
  rintro link ⟨⟩
  decide

/-- An operator that associates to the left is read with its operands. -/
theorem opens_joined {sign : Token} {joint : Joint} {left right : Expr} {ls rs : List Token}
    {rung : Rung} (hr : joint.level.rung? = some rung) (hk : sign.kind = joint.kind)
    (hl : Opens joint.level left ls) (hright : Reads joint.level.next right rs) :
    Opens joint.level (joint.join left right) (ls ++ sign :: rs) := by
  intro rest whole tail hs hm
  rw [List.append_assoc, List.cons_append]
  -- What stands before the sign is read first; the sign itself goes on with no tighter level.
  refine hl _ _ _ ?_ ?_
  · rw [stops_cons, hk, joint.link?_kind]
    rintro link ⟨⟩
    exact Level.lt_next_of_rung hr
  · have hj : rung.joint? sign.kind = some joint :=
      Level.joint?_eq_some.2 ⟨hk, Level.rung?_eq_some.1 hr⟩
    have hy := hright rest hs
    rw [atLevel_next_of_rung hr] at hy
    rw [more_of_rung hr] at hm ⊢
    rw [chainRest, hj]
    simp only [yields_loose_behind, yields_andMaybe]
    exact ⟨right, rest, hy, hm⟩

/-- A power is read with its base and its exponent. -/
theorem reads_power {sign : Token} {base exponent : Expr} {ls rs : List Token}
    (hk : sign.kind = .symbol .power) (hb : Reads .unary base ls)
    (he : Reads .power exponent rs) :
    Reads .power ((Joint.binary .pow).join base exponent) (ls ++ sign :: rs) := by
  intro rest hs
  rw [List.append_assoc, List.cons_append, yields_atLevel (by decide) (by decide)]
  refine ⟨base, sign :: (rs ++ rest), hb _ ?_, ?_⟩
  · rw [stops_cons, hk]
    rintro link ⟨⟩
    decide
  · -- The exponent is read at the level of powers, which is the reader with no rungs left.
    have hp := he rest hs
    simp only [atLevel, Level.rungs] at hp
    rw [chain] at hp
    simp only [more, Level.rung?]
    rw [Parser.exponent, if_pos (by simp [isSymbol, hk])]
    simp only [yields_loose_behind, yields_map]
    exact ⟨exponent, hp, rfl⟩

/-- A power is read at every level that it fits. -/
theorem complete_power {sign : Token} {base exponent : Expr} {ls rs : List Token}
    (fits : level ≤ .power) (hk : sign.kind = .symbol .power)
    (hbs : Spells (.one .unary base) ls) (hes : Spells (.one .power exponent) rs)
    (hb : Reads .unary base ls) (he : Reads .power exponent rs) :
    Complete level ((Joint.binary .pow).join base exponent) (ls ++ sign :: rs) := by
  have hs : Spells (.one .power ((Joint.binary .pow).join base exponent)) (ls ++ sign :: rs) :=
    .joined (by decide) hbs hk hes
  exact Complete.loosen hs ⟨reads_power hk hb he, fun h => absurd h (by decide)⟩ fits

/-! ## The induction -/

/-- Every spelled phrase is read. -/
theorem phraseReads_of_spells {phrase : Phrase} (h : Spells phrase ts) : PhraseReads phrase ts := by
  -- By induction over the spelling, one case for each form of expression and of a list of items.
  induction h with
  | @atom level t e atom =>
    refine complete_primary (.atom atom) (fun rest => ?_) level
    rw [List.singleton_append, primary]
    unfold atom? at atom
    split at atom <;> cases atom <;> rename_i hk <;> simp [hk]
  | @paren level opening closing e before ts after opens hb inner ha closes ih =>
    have hc : Closes .closeParen closing := ⟨closes, .inl rfl⟩
    refine complete_primary (.paren opens hb inner ha closes) (fun rest => ?_) level
    have he : Yields (enclosed .closeParen .parenAfterExpression
        (before ++ (ts ++ (after ++ closing :: rest)))) (e, closing.span) rest :=
      yields_enclosed hc inner ih.reads hb ha .parenAfterExpression
    have hts : before ++ (ts ++ (after ++ [closing])) ++ rest =
        before ++ (ts ++ (after ++ closing :: rest)) := by simp
    rw [List.cons_append, hts, primary, opens]
    simp only [yields_behind, yields_map]
    exact ⟨_, he, rfl⟩
  | @array level opening closing es ts opens elements closes ih =>
    have hc : Closes .closeBracket closing := ⟨closes, .inr rfl⟩
    refine complete_primary (.array opens elements closes) (fun rest => ?_) level
    rw [List.cons_append, List.append_assoc, List.singleton_append, primary, opens]
    simp only [yields_behind, yields_map]
    exact ⟨_, (ih _ .bracketAfterElements _ rest hc).1, rfl⟩
  | @call level opening closing callee args cs ts fits function opens arguments closes ih iha =>
    have hc : Closes .closeParen closing := ⟨closes, .inl rfl⟩
    refine complete_suffix (.call (Level.le_refl _) function opens arguments closes) ?_ fits
    refine opens_suffix (ih.opens (.inr rfl)) (by rw [opens]; rfl) fun rest whole left hm => ?_
    rw [List.append_assoc, List.singleton_append, suffixes, opens]
    simp only [yields_loose_behind, yields_andMaybe]
    exact ⟨(args, closing.span), rest, (iha _ .parenAfterArguments _ rest hc).1, hm⟩
  | @member level dot label object name os fits owner dotted labelled ih =>
    refine complete_suffix (.member (Level.le_refl _) owner dotted labelled) ?_ fits
    refine opens_suffix (ih.opens (.inr rfl)) (by rw [dotted]; rfl) fun rest whole left hm => ?_
    rw [List.singleton_append, suffixes, dotted]
    simp only [yields_loose_behind, yields_andMaybe]
    exact ⟨(name, label.span), rest, yields_takeName.2 ⟨label, rfl, labelled, rfl⟩, hm⟩
  | @index level opening closing object position os before ts after fits owner opens hb place ha
      closes ih ihp =>
    have hc : Closes .closeBracket closing := ⟨closes, .inr rfl⟩
    refine complete_suffix (.index (Level.le_refl _) owner opens hb place ha closes) ?_ fits
    refine opens_suffix (ih.opens (.inr rfl)) (by rw [opens]; rfl) fun rest whole left hm => ?_
    have hts : before ++ (ts ++ (after ++ [closing])) ++ rest =
        before ++ (ts ++ (after ++ closing :: rest)) := by simp
    rw [hts, suffixes, opens]
    simp only [yields_loose_behind, yields_andMaybe]
    exact ⟨(position, closing.span), rest,
      yields_enclosed hc place ihp.reads hb ha .bracketAfterIndex, hm⟩
  | @unary level sign op operand ts fits signed inner ih =>
    have hs : Spells (.one .unary _) (sign :: ts) := .unary (Level.le_refl _) signed inner
    refine Complete.loosen hs ⟨fun rest hr => ?_, fun h => absurd h (by decide)⟩ fits
    exact (yields_unary_signed signed).2 ⟨operand, ih.reads rest hr, rfl⟩
  | @joined level sign joint left right ls rs fits first signed second ihl ihr =>
    -- Powers alone group to the right; all others are read on from their left operand.
    by_cases hp : joint = .binary .pow
    · subst hp
      exact complete_power fits signed first second ihl.reads ihr.reads
    · have hs : Spells (.one joint.level (joint.join left right)) (ls ++ sign :: rs) :=
        .joined (Level.le_refl _) first signed second
      simp only [Joint.leftLevel, Joint.rightLevel, if_neg hp] at ihl ihr
      obtain ⟨rung, hr⟩ : ∃ rung, joint.level.rung? = some rung := by
        rcases joint with op | op <;> cases op <;> first | exact ⟨_, rfl⟩ | exact absurd rfl hp
      have ho := opens_joined hr signed (ihl.opens (.inl (by simp [hr]))) ihr.reads
      exact Complete.loosen hs ⟨ho.reads, fun _ => ho⟩ fits
  | @assign sign name span value ns ts target signed source iht ihv =>
    refine ⟨fun rest hs => ?_, fun h => absurd h (by decide)⟩
    rw [List.append_assoc, List.cons_append, yields_atLevel (by decide) (by decide)]
    refine ⟨.name name span, sign :: (ts ++ rest), iht.reads _ ?_, ?_⟩
    · rw [stops_cons, signed]
      rintro link ⟨⟩
      decide
    · simp only [more, Level.rung?]
      rw [assignment, if_pos (by simp [isSymbol, signed])]
      simp only [yields_loose_behind, yields_map]
      exact ⟨value, ihv.reads rest hs, rfl⟩
  | @none ts blank =>
    intro close want closing rest hc
    refine ⟨?_, fun h => absurd rfl h⟩
    have hk : skipNewlines (ts ++ closing :: rest) = closing :: rest :=
      skipNewlines_append blank hc.isNewline
    have hn : nextIs (·.isSymbol close) (ts ++ closing :: rest) = true := by
      unfold nextIs
      rw [hk]
      simp [isSymbol, hc.kind]
    rw [items, if_pos hn, yields_pastNewlines, yields_map]
    exact ⟨closing, yields_takeSymbol.2 ⟨hk, hc.kind⟩, rfl⟩
  | @last e before ts after hb item ha ih =>
    intro close want closing rest hc
    have hy : Yields (someItems close want (before ++ (ts ++ (after ++ closing :: rest))))
        ([e], closing.span) rest := by
      refine yields_someItems item ih.reads hb ha hc.link? hc.isNewline ?_
      rw [moreItems, if_neg (by simp [hc.isComma]), if_pos (by simp [isSymbol, hc.kind])]
      simp
    have hts : before ++ (ts ++ after) ++ closing :: rest =
        before ++ (ts ++ (after ++ closing :: rest)) := by simp
    rw [hts, items_eq_someItems hc item hb]
    exact ⟨hy, fun _ => hy⟩
  | @more comma e next es before ts after others hb item ha divided following ih iho =>
    intro close want closing rest hc
    have hy : Yields
        (someItems close want (before ++ (ts ++ (after ++ comma :: (others ++ closing :: rest)))))
        (e :: next :: es, closing.span) rest := by
      refine yields_someItems item ih.reads hb ha (by rw [divided]; rfl)
        (by simp [Token.isNewline, divided]) ?_
      rw [moreItems, if_pos (by simp [isSymbol, divided])]
      simp only [yields_behind, yields_map]
      exact ⟨_, (iho close want closing rest hc).2 (by simp), rfl⟩
    have hts : before ++ (ts ++ (after ++ comma :: others)) ++ closing :: rest =
        before ++ (ts ++ (after ++ comma :: (others ++ closing :: rest))) := by simp
    rw [hts, items_eq_someItems hc item hb]
    exact ⟨hy, fun _ => hy⟩

/-- An expression spelled at a level is read there wherever nothing goes on with it. -/
theorem yields_of_spells (h : Spells (.one level e) ts) (hs : Stops level rest) :
    Yields (atLevel level (ts ++ rest)) e rest :=
  (phraseReads_of_spells h).reads rest hs

end QuantumScript.Parser
