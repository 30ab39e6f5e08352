import QuantumScript.Proofs.Grammar.Before
import QuantumScript.Proofs.Grammar.Parts
import QuantumScript.Proofs.Parser.ExprPoints

/-!
# The left operand of an `or`

The tokens before an `or` end with those of its left operand. An expression is read from the first
token of the operand on, so whatever stands in place of the `or`, the reader of all tokens is stuck
where that of this expression is (`LeftOperand`). This tells how a reader meets a token that stands
behind a complete expression and may not stand there.

`Operands` says this of each `or` of some tokens, and `Spells.operands` proves it by induction over
the spelling, with a lemma on stuck readers for each place of an expression in another.
-/

namespace QuantumScript

/-- Every operator between two expressions but `**` has a rung. -/
theorem Joint.exists_rung {joint : Joint} (hp : joint ≠ .binary .pow) :
    ∃ rung, joint.level.rung? = some rung := by
  rcases joint with op | op <;> cases op <;> first | exact ⟨_, rfl⟩ | exact absurd rfl hp

/-- The keyword `or` writes one operator. -/
theorem Joint.eq_or {joint : Joint} (h : joint.kind = .keyword .or) : joint = .logical .or := by
  rcases joint with op | op <;> cases op <;> first | rfl | cases h

/-- The left operand of an operator is at least as tight as the operator. -/
theorem Joint.level_le_leftLevel (joint : Joint) : joint.level ≤ joint.leftLevel := by
  rcases joint with op | op <;> cases op <;> decide

/-- The level of the longest expression that an expression of a level may be the beginning of: an
operand of the loosest operators may be followed by one of them or by what is assigned. -/
def Level.outer : Level → Level
  | disjunction => assignment
  | level => level

/-- Longer expressions are looser. -/
theorem Level.outer_le (level : Level) : level.outer ≤ level := by
  cases level <;> decide

/-- What begins with a loose expression is at least as loose as what begins with a tight one. -/
theorem Level.outer_mono {loose tight : Level} (h : loose ≤ tight) : loose.outer ≤ tight.outer := by
  revert h
  cases loose <;> cases tight <;> decide

/-- The right operand of an operator is not the beginning of a longer one. -/
theorem Joint.outer_rightLevel (joint : Joint) : joint.rightLevel.outer = joint.rightLevel := by
  rcases joint with op | op <;> cases op <;> rfl

namespace Parser

open Token Reading Grammar

variable {level tight : Level} {e : Expr} {ts us mid rest : List Token} {stuck : Stuck}
variable {close : Symbol} {want : Expectation}

/-! ## Readers that are stuck where another is -/

/-- The reader of a level is stuck where that of the next one is. -/
theorem sticks_of_next (hu : level ≠ .unary) (hp : level ≠ .primary)
    (h : Sticks (atLevel level.next ts) stuck) : Sticks (atLevel level ts) stuck := by
  rw [atLevel_eq hu hp, sticks_andMaybe]
  exact .inl h

/-- The reader of a level is stuck behind an expression of the next one where the reader of what may
follow is. -/
theorem sticks_of_more (hu : level ≠ .unary) (hp : level ≠ .primary)
    (hs : Spells (.one level.next e) ts) (hstop : Stops level.next rest)
    (h : Sticks (more level e rest) stuck) : Sticks (atLevel level (ts ++ rest)) stuck := by
  rw [atLevel_eq hu hp, sticks_andMaybe]
  exact .inr ⟨e, rest, yields_of_spells hs hstop, h⟩

/-- At a level whose operators associate to the left, and at that of the suffixes, the reader is
stuck behind an expression where the reader of what may follow is. -/
theorem sticks_of_tighter (hl : level.rung?.isSome ∨ level = .suffix)
    (hs : Spells (.one level.next e) ts) (rest : List Token) (stuck : Stuck)
    (hstop : Stops level.next rest) (h : Sticks (more level e rest) stuck) :
    Sticks (atLevel level (ts ++ rest)) stuck := by
  refine sticks_of_more ?_ ?_ hs hstop h <;> rintro rfl <;> revert hl <;> decide

/-- Without a unary operator in front, the reader of the unary operators is stuck where that of the
suffixes is. -/
theorem sticks_unary_plain {t : Token} (ht : t.startsPlain)
    (h : Sticks (atLevel .suffix (t :: ts)) stuck) : Sticks (atLevel .unary (t :: ts)) stuck := by
  show Sticks (unary (t :: ts)) stuck
  rw [unary, ofKind?_of_startsPlain ht]
  exact h

/-- The reader of a level is stuck where that of a tighter one is. -/
theorem sticks_loose {t : Token} (hl : level ≤ tight) (ht : .suffix ≤ tight → t.startsPlain)
    (h : Sticks (atLevel tight (t :: ts)) stuck) : Sticks (atLevel level (t :: ts)) stuck := by
  refine Level.descend (P := fun a => Sticks (atLevel a (t :: ts)) stuck) h ?_ hl
  intro a hp hnext ha
  by_cases hu : a = .unary
  · subst hu
    exact sticks_unary_plain (ht hnext) ha
  · exact sticks_of_next hu hp ha

/-- The reader of a call, a member or an index is stuck where the reader of the suffixes is behind
what it is put to. -/
theorem sticks_suffixed {t : Token} (ht : t.kind.link? = some .suffix)
    (h : ∀ rest stuck, Stops .primary rest → Sticks (suffixes e rest) stuck →
      Sticks (atLevel .suffix (ts ++ rest)) stuck)
    (hm : Sticks (suffixes e (t :: rest)) stuck) :
    Sticks (atLevel .suffix (ts ++ t :: rest)) stuck := by
  refine h _ _ ?_ hm
  rw [stops_cons, ht]
  rintro link ⟨⟩
  decide

/-- The reader of every level is stuck where that of the primary expressions is, if no unary
operator comes first. -/
theorem sticks_primary {t : Token} (ht : t.startsPlain) (h : Sticks (primary (t :: ts)) stuck) :
    Sticks (atLevel level (t :: ts)) stuck := by
  have hprimary : Sticks (atLevel .primary (t :: ts)) stuck := h
  exact sticks_loose level.le_primary (fun _ => ht) hprimary

/-- Behind an expression of a level whose operators associate to the left, or of the suffixes, the
reader of the level is stuck where the reader of what may follow is. -/
theorem sticks_on {phrase : Phrase} (h : Spells phrase ts) :
    ∀ level e, phrase = .one level e → level.rung?.isSome ∨ level = .suffix →
      ∀ rest stuck, Stops level.next rest → Sticks (more level e rest) stuck →
        Sticks (atLevel level (ts ++ rest)) stuck := by
  -- A tighter expression is read whole; one of the level itself is read on from its left part.
  induction h with
  | atom atom =>
    rintro level e ⟨⟩ hl
    exact sticks_of_tighter hl (.atom atom)
  | paren opens hbefore inner hafter closes =>
    rintro level e ⟨⟩ hl
    exact sticks_of_tighter hl (.paren opens hbefore inner hafter closes)
  | array opens elements closes =>
    rintro level e ⟨⟩ hl
    exact sticks_of_tighter hl (.array opens elements closes)
  | @call _ opening closing callee args cs ts fits function opens arguments closes ih =>
    rintro level e ⟨⟩ hl rest stuck hstop hm
    rcases Level.eq_or_next_le fits with rfl | hnext
    · have hc : Closes .closeParen closing := ⟨closes, .inl rfl⟩
      have hy := (phraseReads_of_spells arguments _ .parenAfterArguments _ rest hc).1
      rw [List.append_assoc, List.cons_append, List.append_assoc, List.singleton_append]
      refine sticks_suffixed (by rw [opens]; rfl) (ih _ _ rfl (.inr rfl)) ?_
      rw [suffixes, opens]
      simp only [sticks_loose_behind, sticks_andMaybe]
      exact .inr ⟨_, _, hy, hm⟩
    · exact sticks_of_tighter hl (.call hnext function opens arguments closes) rest stuck hstop hm
  | @member _ dot label object name os fits owner dotted labelled ih =>
    rintro level e ⟨⟩ hl rest stuck hstop hm
    rcases Level.eq_or_next_le fits with rfl | hnext
    · have hy : Yields (takeName .memberName (label :: rest)) (name, label.span) rest :=
        yields_takeName.2 ⟨label, rfl, labelled, rfl⟩
      rw [List.append_assoc]
      refine sticks_suffixed (by rw [dotted]; rfl) (ih _ _ rfl (.inr rfl)) ?_
      rw [suffixes, dotted]
      simp only [sticks_loose_behind, sticks_andMaybe]
      exact .inr ⟨_, _, hy, hm⟩
    · exact sticks_of_tighter hl (.member hnext owner dotted labelled) rest stuck hstop hm
  | @index _ opening closing object position os before ts after fits owner opens hbefore place
      hafter closes ih =>
    rintro level e ⟨⟩ hl rest stuck hstop hm
    rcases Level.eq_or_next_le fits with rfl | hnext
    · have hc : Closes .closeBracket closing := ⟨closes, .inr rfl⟩
      have hy : Yields (enclosed .closeBracket .bracketAfterIndex
          (before ++ (ts ++ (after ++ closing :: rest)))) (position, closing.span) rest :=
        yields_enclosed hc place (phraseReads_of_spells place).reads hbefore hafter _
      have hts : os ++ opening :: (before ++ (ts ++ (after ++ [closing]))) ++ rest =
          os ++ opening :: (before ++ (ts ++ (after ++ closing :: rest))) := by simp
      rw [hts]
      refine sticks_suffixed (by rw [opens]; rfl) (ih _ _ rfl (.inr rfl)) ?_
      rw [suffixes, opens]
      simp only [sticks_loose_behind, sticks_andMaybe]
      exact .inr ⟨_, _, hy, hm⟩
    · have hs := Spells.index hnext owner opens hbefore place hafter closes
      exact sticks_of_tighter hl hs rest stuck hstop hm
  | @unary level sign op operand ts fits signed inner =>
    rintro _ _ ⟨⟩ hl rest stuck hstop hm
    have hnext : level.next ≤ .unary := by
      revert hl fits
      cases level <;> decide
    exact sticks_of_tighter hl (.unary hnext signed inner) rest stuck hstop hm
  | @joined _ sign joint left right ls rs fits first signed second ih =>
    rintro level e ⟨⟩ hl rest stuck hstop hm
    rcases Level.eq_or_next_le fits with rfl | hnext
    · have hp : joint ≠ .binary .pow := by
        rintro rfl
        revert hl
        decide
      obtain ⟨rung, hr⟩ := joint.exists_rung hp
      simp only [Joint.leftLevel, Joint.rightLevel, if_neg hp] at ih second
      have hy := yields_of_spells second hstop
      have hj : rung.joint? sign.kind = some joint :=
        Level.joint?_eq_some.2 ⟨signed, Level.rung?_eq_some.1 hr⟩
      rw [List.append_assoc, List.cons_append]
      refine ih _ _ rfl hl _ _ ?_ ?_
      · rw [stops_cons, signed, joint.link?_kind]
        rintro link ⟨⟩
        exact Level.lt_next_of_rung hr
      · rw [atLevel_next_of_rung hr] at hy
        rw [more_of_rung hr] at hm ⊢
        rw [chainRest, hj]
        simp only [sticks_loose_behind, sticks_andMaybe]
        exact .inr ⟨right, rest, hy, hm⟩
    · exact sticks_of_tighter hl (.joined hnext first signed second) rest stuck hstop hm
  | assign =>
    rintro _ _ ⟨⟩ hl
    exact absurd hl (by decide)
  | none | last | more =>
    intro level e h
    cases h

/-! ## The places of an expression in another -/

/-- The reader of a primary expression is stuck where that of an expression in its parentheses
is. -/
theorem sticks_paren {opening : Token} (hk : opening.kind = .symbol .openParen)
    (h : Sticks (enclosed .closeParen .parenAfterExpression ts) stuck) :
    Sticks (primary (opening :: ts)) stuck := by
  rw [primary, hk]
  simpa using h

/-- The reader of a primary expression is stuck where that of the elements of an array is. -/
theorem sticks_array {opening : Token} (hk : opening.kind = .symbol .openBracket)
    (h : Sticks (items .closeBracket .bracketAfterElements ts) stuck) :
    Sticks (primary (opening :: ts)) stuck := by
  rw [primary, hk]
  simpa using h

/-- The reader of an expression in brackets is stuck where that of the expression is. -/
theorem sticks_enclosed {before : List Token} {t : Token} (hb : LineEnds before)
    (ht : t.isNewline = false) (h : Sticks (expression (t :: ts)) stuck) :
    Sticks (enclosed close want (before ++ t :: ts)) stuck := by
  rw [enclosed, sticks_pastNewlines, sticks_andThen, skipNewlines_append hb ht]
  exact .inl h

/-- The readers of items are stuck where that of the first one is. -/
theorem sticks_someItems {before : List Token} {t : Token} (hb : LineEnds before)
    (ht : t.isNewline = false) (h : Sticks (expression (t :: ts)) stuck) :
    Sticks (someItems close want (before ++ t :: ts)) stuck := by
  rw [someItems, sticks_pastNewlines, sticks_andThen, skipNewlines_append hb ht]
  exact .inl h

/-- The reader of an assignment is stuck where that of the value is. -/
theorem sticks_source {sign : Token} {name : String} {span : Span}
    (hs : Spells (.one .disjunction (.name name span)) ts) (hk : sign.kind = .symbol .assign)
    (h : Sticks (expression rest) stuck) : Sticks (expression (ts ++ sign :: rest)) stuck := by
  show Sticks (atLevel .assignment (ts ++ sign :: rest)) stuck
  refine sticks_of_more (by decide) (by decide) hs ?_ ?_
  · rw [stops_cons, hk]
    rintro link ⟨⟩
    decide
  · show Sticks (assignment (.name name span) (sign :: rest)) stuck
    rw [assignment, if_pos (by simp [isSymbol, hk])]
    simpa using h

/-- The reader of an expression with a suffix is stuck where that of the suffix is. -/
theorem sticks_part {opening : Token} {object : Expr} (hs : Spells (.one .suffix object) ts)
    (hk : opening.kind.link? = some .suffix)
    (h : Sticks (suffixes object (opening :: rest)) stuck) :
    Sticks (atLevel .suffix (ts ++ opening :: rest)) stuck :=
  sticks_suffixed hk (sticks_on hs _ _ rfl (.inr rfl)) h

/-- The reader of a call is stuck where that of its arguments is. -/
theorem sticks_arguments {opening : Token} {callee : Expr} (hs : Spells (.one .suffix callee) ts)
    (hk : opening.kind = .symbol .openParen)
    (h : Sticks (items .closeParen .parenAfterArguments rest) stuck) :
    Sticks (atLevel .suffix (ts ++ opening :: rest)) stuck := by
  refine sticks_part hs (by rw [hk]; rfl) ?_
  rw [suffixes, hk]
  simp only [sticks_loose_behind, sticks_andMaybe]
  exact .inl h

/-- The reader of an item of an array is stuck where that of its place is. -/
theorem sticks_place {opening : Token} {object : Expr} (hs : Spells (.one .suffix object) ts)
    (hk : opening.kind = .symbol .openBracket)
    (h : Sticks (enclosed .closeBracket .bracketAfterIndex rest) stuck) :
    Sticks (atLevel .suffix (ts ++ opening :: rest)) stuck := by
  refine sticks_part hs (by rw [hk]; rfl) ?_
  rw [suffixes, hk]
  simp only [sticks_loose_behind, sticks_andMaybe]
  exact .inl h

/-- The reader of a unary operator is stuck where that of its operand is. -/
theorem sticks_operand {sign : Token} {op : UnaryOp} (hk : sign.kind = op.kind)
    (h : Sticks (unary ts) stuck) : Sticks (unary (sign :: ts)) stuck := by
  rw [unary, UnaryOp.ofKind?_eq_some.2 hk]
  simpa using h

/-- The reader of an operator between two operands is stuck where that of the right one is. -/
theorem sticks_right {sign : Token} {joint : Joint} {left : Expr}
    (hs : Spells (.one joint.leftLevel left) ts) (hk : sign.kind = joint.kind)
    (h : Sticks (atLevel joint.rightLevel rest) stuck) :
    Sticks (atLevel joint.level (ts ++ sign :: rest)) stuck := by
  by_cases hp : joint = .binary .pow
  · subst hp
    show Sticks (atLevel .power (ts ++ sign :: rest)) stuck
    refine sticks_of_more (by decide) (by decide) hs ?_ ?_
    · rw [stops_cons, hk, Joint.link?_kind]
      rintro link ⟨⟩
      decide
    · -- The exponent is read at the level of powers, which is the reader with no rungs left.
      replace h : Sticks (chain [] rest) stuck := h
      rw [chain] at h
      show Sticks (exponent left (sign :: rest)) stuck
      rw [exponent, if_pos (by simp [isSymbol, hk, Joint.kind])]
      simpa using h
  · simp only [Joint.leftLevel, Joint.rightLevel, if_neg hp] at hs h
    obtain ⟨rung, hr⟩ := joint.exists_rung hp
    have hj : rung.joint? sign.kind = some joint :=
      Level.joint?_eq_some.2 ⟨hk, Level.rung?_eq_some.1 hr⟩
    refine sticks_on hs _ _ rfl (.inl (by simp [hr])) _ _ ?_ ?_
    · rw [stops_cons, hk, joint.link?_kind]
      rintro link ⟨⟩
      exact Level.lt_next_of_rung hr
    · rw [atLevel_next_of_rung hr] at h
      rw [more_of_rung hr, chainRest, hj]
      simp only [sticks_loose_behind, sticks_andMaybe]
      exact .inl h

/-- The readers of items are stuck where that of the items behind a comma is. -/
theorem sticks_laterItems {before after : List Token} {comma : Token} (hb : LineEnds before)
    (hs : Spells (.one .assignment e) ts) (ha : LineEnds after)
    (hk : comma.kind = .symbol .comma) (h : Sticks (someItems close want rest) stuck) :
    Sticks (someItems close want (before ++ (ts ++ (after ++ comma :: rest)))) stuck := by
  have hy : Yields (expression (ts ++ (after ++ comma :: rest))) e (after ++ comma :: rest) :=
    yields_of_spells hs (stops_lineEnds ha (stops_of_link?_eq_none (by rw [hk]; rfl)))
  rw [someItems, sticks_pastNewlines, sticks_andThen, hs.skipNewlines hb]
  refine .inr ⟨e, _, hy, ?_⟩
  rw [sticks_pastNewlines, skipNewlines_append ha (by simp [isNewline, hk]), moreItems,
    if_pos (by simp [isSymbol, hk])]
  simpa using h

/-- Where an expression comes first, all items are read as at least one. -/
theorem sticks_items {before : List Token} {t : Token}
    (hclose : close = .closeParen ∨ close = .closeBracket) (hb : LineEnds before)
    (ht : t.startsExpr) (h : Sticks (someItems close want (before ++ t :: ts)) stuck) :
    Sticks (items close want (before ++ t :: ts)) stuck := by
  have hc : Closes close (word (.symbol close)) := ⟨rfl, hclose⟩
  have hn : nextIs (·.isSymbol close) (before ++ t :: ts) = false := by
    unfold nextIs
    rw [skipNewlines_append hb (isNewline_of_startsExpr ht)]
    exact hc.startsExpr ht
  rw [items, if_neg (by rw [hn]; exact Bool.false_ne_true)]
  exact h

/-! ## The tokens before an `or` -/

/-- The last of some tokens spell the left operand of an `or` among some expressions, and a reader
of these tokens with any behind them is stuck where that of an expression is from the operand on. -/
structure LeftOperand (parts : List Expr) (sticks : List Token → Stuck → Prop)
    (front : List Token) (left : Expr) (lhs : List Token) : Prop where
  /-- The tokens of the operand stand last. -/
  ends : lhs <:+ front
  /-- They spell the operand. -/
  spelled : Spells (.one .disjunction left) lhs
  /-- It is the left operand of an `or`. -/
  joined : ∃ right, (Joint.logical .or).join left right ∈ parts
  /-- An expression is read from the operand on. -/
  deferred : ∀ us stuck, Sticks (expression (lhs ++ us)) stuck → sticks (front ++ us) stuck

/-- The tokens before each `or` among some tokens, together with some in front, end with its left
operand. -/
abbrev Operands (parts : List Expr) (sticks : List Token → Stuck → Prop)
    (front ts : List Token) : Prop :=
  Before (.keyword .or) (fun us => ∃ left lhs, LeftOperand parts sticks us left lhs) front ts

/-- Tokens with others in front, read by a reader that is stuck where the reader behind these others
is. -/
theorem Operands.lift {parts parts' : List Expr} {sticks sticks' : List Token → Stuck → Prop}
    {front : List Token} (h : Operands parts sticks [] ts)
    (hparts : ∀ left right, (Joint.logical .or).join left right ∈ parts →
      (Joint.logical .or).join left right ∈ parts')
    (hsticks : ∀ mid stuck, mid.head? = ts.head? → sticks mid stuck →
      sticks' (front ++ mid) stuck) : Operands parts' sticks' front ts := by
  refine h.behind fun us hus hleft => ?_
  obtain ⟨left, lhs, hends, hspelled, ⟨right, hjoined⟩, hdeferred⟩ := hleft
  refine ⟨left, lhs, hends.trans (List.suffix_append _ _), hspelled,
    ⟨right, hparts _ _ hjoined⟩, fun vs stuck hs => ?_⟩
  -- The operand is no empty stretch, so the tokens before the `or` begin like the whole.
  obtain ⟨t, tail, rfl, -⟩ := hspelled.starts
  obtain ⟨more, rfl⟩ := hus
  obtain ⟨u, us, rfl⟩ : ∃ u us', us = u :: us' := by
    obtain ⟨before, rfl⟩ := hends
    cases before <;> exact ⟨_, _, rfl⟩
  rw [List.append_assoc]
  exact hsticks _ _ rfl (hdeferred vs stuck hs)

/-- A reader of what a phrase is read as is stuck: for an expression that of the longest expression
that it may be the beginning of, and for items those of the items up to every closing bracket. -/
def SticksAs : Phrase → List Token → Stuck → Prop
  | .one level _, ts, stuck => Sticks (atLevel level.outer ts) stuck
  | .many _, ts, stuck =>
    ∀ close want, close = .closeParen ∨ close = .closeBracket →
      Sticks (items close want ts) stuck ∧ Sticks (someItems close want ts) stuck

/-- Tokens that begin like an expression begin with a token that may start it. -/
theorem exists_starts (hs : Spells (.one level e) ts) (hmid : mid.head? = ts.head?) :
    ∃ t us, mid = t :: us ∧ t.startsExpr ∧ (.suffix ≤ level → t.startsPlain) := by
  obtain ⟨t, us, rfl, ht⟩ := hs.startsWith _ _ rfl
  obtain ⟨vs, rfl⟩ := List.head?_eq_some_iff.1 hmid
  exact ⟨t, vs, rfl, ht⟩

/-- Tokens that begin like an expression are read at a looser level, too. -/
theorem sticks_looser (hs : Spells (.one tight e) ts) (hl : level ≤ tight)
    (hmid : mid.head? = ts.head?) (h : Sticks (atLevel tight mid) stuck) :
    Sticks (atLevel level mid) stuck := by
  obtain ⟨t, us, rfl, -, ht⟩ := exists_starts hs hmid
  exact sticks_loose hl ht h

/-- What an expression begins with is read with all that may follow it. -/
theorem sticksAs_looser (hs : Spells (.one tight e) ts) (hl : level ≤ tight)
    (hmid : mid.head? = ts.head?) (h : SticksAs (.one tight e) mid stuck) {whole : Expr} :
    SticksAs (.one level whole) mid stuck :=
  sticks_looser (hs.loosen _ _ rfl _ tight.outer_le) (Level.outer_mono hl) hmid h

/-- Items are stuck where the first of them is. -/
theorem sticksAs_firstItem {before : List Token} {es : List Expr}
    (hs : Spells (.one .assignment e) ts) (hb : LineEnds before) (hmid : mid.head? = ts.head?)
    (h : SticksAs (.one .assignment e) mid stuck) : SticksAs (.many es) (before ++ mid) stuck := by
  intro close want hclose
  obtain ⟨t, us, rfl, ht, -⟩ := exists_starts hs hmid
  have hsome : Sticks (someItems close want (before ++ t :: us)) stuck :=
    sticks_someItems hb (isNewline_of_startsExpr ht) h
  exact ⟨sticks_items hclose hb ht hsome, hsome⟩

/-- What stands behind an expression does not change its first token. -/
theorem head?_spelled (hs : Spells (.one level e) ts) : (ts ++ rest).head? = ts.head? := by
  obtain ⟨t, us, rfl, -⟩ := hs.starts
  rfl

/-- Items are stuck where those behind the first comma are. -/
theorem sticksAs_laterItems {before after : List Token} {comma : Token} {es others : List Expr}
    (hb : LineEnds before) (hs : Spells (.one .assignment e) ts) (ha : LineEnds after)
    (hk : comma.kind = .symbol .comma) (h : SticksAs (.many others) mid stuck) :
    SticksAs (.many es) (before ++ (ts ++ (after ++ comma :: mid))) stuck := by
  intro close want hclose
  have hsome := sticks_laterItems hb hs ha hk (h close want hclose).2
  obtain ⟨t, us, rfl, ht⟩ := hs.starts
  exact ⟨sticks_items hclose hb ht hsome, hsome⟩

end Parser

namespace Grammar

open QuantumScript.Parser Token Reading

/-- The tokens before each `or` of a phrase end with its left operand, from which on an expression
is read. -/
theorem Spells.operands {phrase : Phrase} {ts : List Token} (h : Spells phrase ts) :
    Operands phrase.parts (SticksAs phrase) [] ts := by
  -- By induction over the spelling: each `or` but that of an operator itself stands in a part, and
  -- the reader of the whole is stuck where that of the part is.
  induction h with
  | @atom level t e atom =>
    refine .single fun hk => ?_
    simp [atom?, hk] at atom
  | @paren level opening closing e before ts after opens hb inner ha closes ih =>
    refine .cons (by simp [opens]) (.append (.none (hb.kind_ne (by decide)))
      (.append (ih.lift ?_ ?_)
        (.append (.none (ha.kind_ne (by decide))) (.single (by simp [closes])))))
    · exact fun _ _ hp => hp
    · intro mid stuck hmid hs
      obtain ⟨t, us, rfl, ht, -⟩ := exists_starts inner hmid
      have hparen : Sticks (primary (opening :: (before ++ t :: us))) stuck :=
        sticks_paren opens (sticks_enclosed hb (isNewline_of_startsExpr ht) hs)
      exact sticks_primary (by simp [startsPlain, opens]) hparen
  | @array level opening closing es ts opens elements closes ih =>
    refine .cons (by simp [opens]) (.append (ih.lift ?_ ?_) (.single (by simp [closes])))
    · exact fun _ _ hp => List.mem_cons_of_mem _ hp
    · intro mid stuck _ hs
      have harray : Sticks (primary (opening :: mid)) stuck :=
        sticks_array opens (hs .closeBracket _ (.inr rfl)).1
      exact sticks_primary (by simp [startsPlain, opens]) harray
  | @call level opening closing callee args cs ts fits function opens arguments closes ihc iha =>
    refine .append (ihc.lift ?_ ?_)
      (.cons (by simp [opens]) (.append (iha.lift ?_ ?_) (.single (by simp [closes]))))
    · exact fun _ _ hp => Expr.mem_parts_called_of rfl (.inl hp)
    · exact fun mid stuck hmid hs => sticksAs_looser function fits hmid hs
    · exact fun _ _ hp => Expr.mem_parts_called_of rfl (.inr hp)
    · intro mid stuck _ hs
      have hcall := sticks_arguments function opens (hs .closeParen _ (.inl rfl)).1
      rw [List.nil_append, List.append_assoc]
      exact sticks_looser function (Level.le_trans level.outer_le fits) (head?_spelled function)
        hcall
  | @member level dot label object name os fits owner dotted labelled ih =>
    refine .append (ih.lift ?_ ?_) (.cons (by simp [dotted]) (.single (by simp [labelled])))
    · exact fun _ _ hp => List.mem_cons_of_mem _ hp
    · exact fun mid stuck hmid hs => sticksAs_looser owner fits hmid hs
  | @index level opening closing object position os before ts after fits owner opens hb place ha
      closes iho ihp =>
    refine .append (iho.lift ?_ ?_) (.cons (by simp [opens])
      (.append (.none (hb.kind_ne (by decide))) (.append (ihp.lift ?_ ?_)
        (.append (.none (ha.kind_ne (by decide))) (.single (by simp [closes]))))))
    · exact fun _ _ hp => List.mem_cons_of_mem _ (List.mem_append_left _ hp)
    · exact fun mid stuck hmid hs => sticksAs_looser owner fits hmid hs
    · exact fun _ _ hp => List.mem_cons_of_mem _ (List.mem_append_right _ hp)
    · intro mid stuck hmid hs
      obtain ⟨t, us, rfl, ht, -⟩ := exists_starts place hmid
      have hindex := sticks_place owner opens (sticks_enclosed hb (isNewline_of_startsExpr ht) hs)
      simp only [List.nil_append, List.append_assoc, List.singleton_append]
      exact sticks_looser owner (Level.le_trans level.outer_le fits) (head?_spelled owner) hindex
  | @unary level sign op operand ts fits signed inner ih =>
    refine .cons (by rw [signed]; cases op <;> simp [UnaryOp.kind]) (ih.lift ?_ ?_)
    · exact fun _ _ hp => List.mem_cons_of_mem _ hp
    · intro mid stuck _ hs
      have hunary : Sticks (atLevel .unary (sign :: mid)) stuck := sticks_operand signed hs
      exact sticks_loose (Level.le_trans level.outer_le fits) (fun hl => absurd hl (by decide))
        hunary
  | @joined level sign joint left right ls rs fits first signed second ihl ihr =>
    have hl : level ≤ joint.leftLevel := Level.le_trans fits joint.level_le_leftLevel
    have hmem {p : Expr} (hp : p ∈ left.parts ++ right.parts) :
        p ∈ (Phrase.one level (joint.join left right)).parts := by
      rw [Phrase.parts, joint.parts_join]
      exact List.mem_cons_of_mem _ hp
    refine .append (ihl.lift ?_ ?_) (.consOf ?_ (ihr.lift ?_ ?_))
    · exact fun _ _ hp => hmem (List.mem_append_left _ hp)
    · exact fun mid stuck hmid hs => sticksAs_looser first hl hmid hs
    · -- The operator itself is the `or`: its left operand begins where the whole does.
      intro hk
      obtain rfl : joint = .logical .or := Joint.eq_or (signed.symm.trans hk)
      refine ⟨left, ls, List.suffix_refl _, first, ⟨right, Expr.mem_parts_self _⟩, ?_⟩
      intro us stuck hs
      have hout : level.outer = .assignment := by
        revert fits
        cases level <;> decide
      show Sticks (atLevel level.outer (ls ++ us)) stuck
      rw [hout]
      exact hs
    · exact fun _ _ hp => hmem (List.mem_append_right _ hp)
    · intro mid stuck _ hs
      have hright : Sticks (atLevel joint.rightLevel mid) stuck := by
        rw [← joint.outer_rightLevel]
        exact hs
      rw [List.nil_append, List.append_assoc]
      have hwhole : Spells (.one joint.level (joint.join left right)) (ls ++ sign :: rs) :=
        .joined (Level.le_refl _) first signed second
      refine sticks_looser hwhole (Level.le_trans level.outer_le fits) ?_
        (sticks_right first signed hright)
      exact (head?_spelled first).trans (head?_spelled first).symm
  | @assign sign name span value ns ts target signed source iht ihs =>
    refine .append (iht.lift ?_ ?_) (.cons (by simp [signed]) (ihs.lift ?_ ?_))
    · -- There is no operator in a name.
      intro left right hp
      cases List.mem_singleton.1 hp
    · exact fun mid stuck _ hs => hs
    · exact fun _ _ hp => List.mem_cons_of_mem _ hp
    · intro mid stuck _ hs
      rw [List.nil_append, List.append_assoc]
      exact sticks_source target signed hs
  | none blank => exact .none (blank.kind_ne (by decide))
  | @last e before ts after hb item ha ih =>
    refine .append (.none (hb.kind_ne (by decide))) (.append (ih.lift ?_ ?_)
      (.none (ha.kind_ne (by decide))))
    · exact fun _ _ hp => List.mem_append_left _ hp
    · exact fun mid stuck hmid hs => sticksAs_firstItem item hb hmid hs
  | @more comma e next es before ts after others hb item ha divided rest ihe ihr =>
    refine .append (.none (hb.kind_ne (by decide))) (.append (ihe.lift ?_ ?_)
      (.append (.none (ha.kind_ne (by decide))) (.cons (by simp [divided]) (ihr.lift ?_ ?_))))
    · exact fun _ _ hp => List.mem_append_left _ hp
    · exact fun mid stuck hmid hs => sticksAs_firstItem item hb hmid hs
    · exact fun _ _ hp => List.mem_append_right _ hp
    · intro mid stuck _ hs
      simp only [List.nil_append, List.append_assoc, List.singleton_append]
      exact sticksAs_laterItems hb item ha divided hs

end Grammar

end QuantumScript
