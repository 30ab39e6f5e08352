import Mathlib.Data.List.Chain
import QuantumScript.Proofs.Parser.ClauseOperand
import QuantumScript.Proofs.Parser.FirstWrong
import QuantumScript.Proofs.Parser.Sentence

/-!
# What may be assigned to

An assignment is read from a name, which may stand in parentheses, with `=` right behind it
(`AssignedIn`). Wherever an expression is complete, so that `or` may follow, `=` may follow only if
that expression is a name; behind every other one it is the first wrong token, whatever stands
behind it (`assignment_targets`). Parentheses are gone when the target is looked at, so a name in
parentheses counts as a name (`assignment_parenthesized`).
-/

namespace QuantumScript

open Grammar

/-- Among some tokens, a name with `=` right behind it and the value after this spell an
assignment. The name may stand in parentheses; without them, it is the one token before the `=`. -/
def AssignedIn (ts : List Token) (name : String) (value : Expr) (span : Span) : Prop :=
  ∃ before target sign source after nameSpan,
    ts = before ++ (target ++ sign :: (source ++ after)) ∧
    Target name (target.map Token.kind) ∧
    ((∃ label, target = [label] ∧ label.kind = .name name) ↔
      ∀ t ∈ target.head?, t.kind ≠ .symbol .openParen) ∧
    Spells (.one .disjunction (.name name nameSpan)) target ∧
    sign.kind = .symbol .assign ∧
    Spells (.one .assignment value) source ∧
    span = nameSpan.through value.span

variable {ts us : List Token} {name : String} {value : Expr} {span : Span}

/-- A target without parentheses is one token, a name. -/
theorem Grammar.Target.alone_iff (h : Target name (ts.map Token.kind)) :
    (∃ label, ts = [label] ∧ label.kind = .name name) ↔
      ∀ t ∈ ts.head?, t.kind ≠ .symbol .openParen := by
  constructor
  · rintro ⟨label, rfl, hk⟩ t ht
    cases ht
    simp [hk]
  · intro hfirst
    generalize hks : ts.map Token.kind = ks at h
    cases h with
    | plain =>
      obtain ⟨label, rfl, hk⟩ := List.map_eq_singleton_iff.1 hks
      exact ⟨label, rfl, hk⟩
    | paren =>
      obtain ⟨t, us, rfl, hk, -⟩ := List.map_eq_cons_iff.1 hks
      exact absurd hk (hfirst t rfl)

/-- What is assigned among some tokens is assigned among more. -/
theorem AssignedIn.mono (h : AssignedIn us name value span) (hts : us <:+: ts) :
    AssignedIn ts name value span := by
  obtain ⟨before, target, sign, source, after, nameSpan, rfl, h⟩ := h
  obtain ⟨front, tail, rfl⟩ := hts
  exact ⟨front ++ before, target, sign, source, after ++ tail, nameSpan, by simp, h⟩

/-- What spells an assignment holds a name with `=` right behind it. -/
theorem Grammar.Spells.assignedIn {phrase : Phrase} (h : Spells phrase ts) :
    ∀ level, phrase = .one level (.assign name value span) → AssignedIn ts name value span := by
  induction h with
  | atom atom =>
    rintro _ ⟨⟩
    have hparts := Token.parts_of_atom? atom
    cases value <;> simp [Expr.parts] at hparts
  | @paren _ opening closing _ before ts after _ _ _ _ _ ih =>
    rintro level ⟨⟩
    exact (ih _ rfl).mono ⟨opening :: before, after ++ [closing], by simp⟩
  | @call _ _ _ callee =>
    intro _ heq
    cases callee <;> cases heq
  | @joined _ _ joint =>
    intro _ heq
    cases joint <;> cases heq
  | assign target signed source =>
    rintro _ ⟨⟩
    have htarget := target.target _ _ _ rfl
    exact ⟨[], _, _, _, [], _, by simp, htarget, htarget.alone_iff, target, signed, source, rfl⟩
  | _ => rintro _ ⟨⟩

/-- Every assignment in a program is read from a name with `=` right behind it. -/
theorem assignedIn_of_parse {tokens : Tokens} {program : Program}
    (h : parse tokens = .ok program) (hmem : .assign name value span ∈ partsAmong program) :
    AssignedIn tokens.items name value span := by
  obtain ⟨lead, rest, -, hbody, hitems⟩ := Parser.parse_eq_ok.1 h
  obtain ⟨level, us, hus, hs⟩ := hbody.spelledIn hmem
  rw [hitems]
  exact (hs.assignedIn level rfl).mono (hus.trans (List.suffix_append lead rest).isInfix)

namespace Parser

open Token Reading

variable {left : Expr} {lhs after : List Token} {sign : Token} {stuck : Stuck}

/-- Behind an expression that is no name, `=` is the wrong token. -/
theorem sticks_not_name (hs : Spells (.one .disjunction left) lhs)
    (hk : sign.kind = .symbol .assign) (hleft : ∀ name span, left ≠ .name name span) :
    Sticks (expression (lhs ++ sign :: after)) ⟨.assignmentTarget, sign :: after⟩ := by
  show Sticks (atLevel .assignment (lhs ++ sign :: after)) _
  refine sticks_of_more (by decide) (by decide) hs ?_ ?_
  · rw [stops_cons, hk]
    rintro link ⟨⟩
    decide
  · show Sticks (assignment left (sign :: after)) _
    rw [assignment.eq_def]
    dsimp only
    rw [if_pos (by simp [isSymbol, hk])]
    cases left with
    | name name span => exact absurd rfl (hleft name span)
    | _ => exact sticks_error.2 rfl

/-- An expression is missing where no tokens are left. -/
theorem sticks_expression_nil : Sticks (expression []) ⟨.expression, []⟩ := by
  have hunary : Sticks (atLevel .unary []) ⟨.expression, []⟩ := by
    show Sticks (unary []) _
    rw [unary]
    exact sticks_error.2 rfl
  exact Level.descend (P := fun level => Sticks (atLevel level []) ⟨.expression, []⟩) hunary
    (fun level hp hnext h => sticks_of_next (by rintro rfl; exact absurd hnext (by decide)) hp h)
    (Level.assignment_le _)

/-- Behind a name and `=`, nothing but a value is missing. -/
theorem sticks_name (hs : Spells (.one .disjunction (.name name span)) lhs)
    (hk : sign.kind = .symbol .assign) :
    Sticks (expression (lhs ++ [sign])) ⟨.expression, []⟩ :=
  sticks_source hs hk sticks_expression_nil

end Parser

/-- In a program, assignments are read from names with `=` right behind them, and every `=` stands
right behind a name. Wherever an expression is complete, so that an `or` follows it, `=` may follow
as well if the expression is a name. If it is no name, reading fails at the `=`, whatever stands
behind it. -/
theorem assignment_targets {tokens : Tokens} {program : Program} (h : parse tokens = .ok program) :
    (∀ name value span, .assign name value span ∈ partsAmong program →
      AssignedIn tokens.items name value span) ∧
    (∀ front sign rest, tokens.items = front ++ sign :: rest → sign.kind = .symbol .assign →
      ∃ before target name, front = before ++ target ∧ Target name (target.map Token.kind)) ∧
    ∀ front o rest, tokens.items = front ++ o :: rest → o.kind = .keyword .or →
      ∃ before lhs left right, front = before ++ lhs ∧ Spells (.one .disjunction left) lhs ∧
        (Joint.logical .or).join left right ∈ partsAmong program ∧
        ∀ sign : Token, sign.kind = .symbol .assign →
          ((∃ name span, left = .name name span) →
            ∃ more, ∀ ending, ∃ program, parse ⟨front ++ sign :: more, ending⟩ = .ok program) ∧
          ((∀ name span, left ≠ .name name span) →
            ∀ after ending, parse ⟨front ++ sign :: after, ending⟩ =
              .error ⟨.invalidAssignmentTarget, some sign.span⟩) := by
  have hspells := Parser.parse_eq_ok.1 h
  refine ⟨fun name value span => assignedIn_of_parse h, fun front sign rest hitems hk => ?_,
    fun front o rest hitems ho => ?_⟩
  · obtain ⟨name, span, target, ⟨before, hends⟩, hs⟩ := hspells.targets front sign rest hitems hk
    exact ⟨before, target, name, hends.symm, hs.target _ _ _ rfl⟩
  obtain ⟨left, lhs, ⟨before, hends⟩, hs, ⟨right, hmem⟩, hdeferred⟩ :=
    hspells.operands front o rest hitems ho
  refine ⟨before, lhs, left, right, hends.symm, hs, hmem, fun sign hk => ⟨?_, ?_⟩⟩
  · rintro ⟨name, span, rfl⟩
    -- The reader lacks only a value, so what stands before can be completed.
    have hstuck := hdeferred _ _ (Parser.sticks_name hs hk)
    obtain ⟨used, hused, ⟨more, whole, hwhole⟩, -⟩ := Parser.points_program _ _ _ hstuck
    rw [List.append_nil] at hused
    refine ⟨more, fun ending => ⟨whole, Parser.parse_eq_ok.2 ?_⟩⟩
    simpa [← hused] using hwhole
  · intro hleft after ending
    have hstuck : Parser.statements (Token.skipSeparators (front ++ sign :: after)) =
        .error ⟨.assignmentTarget, sign :: after⟩ :=
      hdeferred _ _ (Parser.sticks_not_name hs hk hleft)
    exact @Tokens.parse_of_stuck ⟨front ++ sign :: after, ending⟩ _ hstuck

/-- The tokens of `(x) = f(y)`. -/
def calledTokens : List Token :=
  [⟨.symbol .openParen, ⟨0, 1, 1, 1⟩, "("⟩, ⟨.name "x", ⟨1, 2, 1, 2⟩, "x"⟩,
    ⟨.symbol .closeParen, ⟨2, 3, 1, 3⟩, ")"⟩, ⟨.symbol .assign, ⟨4, 5, 1, 5⟩, "="⟩,
    ⟨.name "f", ⟨6, 7, 1, 7⟩, "f"⟩, ⟨.symbol .openParen, ⟨7, 8, 1, 8⟩, "("⟩,
    ⟨.name "y", ⟨8, 9, 1, 9⟩, "y"⟩, ⟨.symbol .closeParen, ⟨9, 10, 1, 10⟩, ")"⟩]

/-- The tokens of `(x) = f(y) or z`. -/
def eitherTokens : Tokens :=
  ⟨calledTokens ++ [⟨.keyword .or, ⟨11, 13, 1, 12⟩, "or"⟩, ⟨.name "z", ⟨14, 15, 1, 15⟩, "z"⟩],
    ⟨15, 15, 1, 16⟩⟩

/-- The value that is assigned in `(x) = f(y) or z`. -/
def eitherValue : Expr :=
  .logical .or (.call (.name "f" ⟨6, 7, 1, 7⟩) [.name "y" ⟨8, 9, 1, 9⟩] ⟨6, 10, 1, 7⟩)
    (.name "z" ⟨14, 15, 1, 15⟩) ⟨6, 15, 1, 7⟩

/-- A name in parentheses is assigned to, and `=` is wrong behind a call. -/
theorem assignment_targets_called :
    parse eitherTokens = .ok [.expr (.assign "x" eitherValue ⟨1, 15, 1, 2⟩)] ∧
      AssignedIn eitherTokens.items "x" eitherValue ⟨1, 15, 1, 2⟩ ∧
      ∀ (sign : Token) (after : List Token) (ending : Span), sign.kind = .symbol .assign →
        parse ⟨calledTokens ++ sign :: after, ending⟩ =
          .error ⟨.invalidAssignmentTarget, some sign.span⟩ := by
  have hparse : parse eitherTokens = .ok [.expr (.assign "x" eitherValue ⟨1, 15, 1, 2⟩)] := by cbv
  obtain ⟨hassigned, -, hfollows⟩ := assignment_targets hparse
  refine ⟨hparse, hassigned _ _ _ (by simp [partsAmong, Stmt.parts, Expr.parts]), ?_⟩
  intro sign after ending hk
  obtain ⟨before, lhs, left, right, -, -, hmem, hsign⟩ := hfollows calledTokens _ _ rfl rfl
  refine (hsign sign hk).2 ?_ after ending
  -- The one `or` of the program has a call before it.
  rintro name span rfl
  simp [partsAmong, Stmt.parts, Expr.parts, partsIn, Joint.join, eitherValue] at hmem

/-- The tokens of `(x) = 1`. -/
def parenthesizedTokens : Tokens :=
  ⟨[⟨.symbol .openParen, ⟨0, 1, 1, 1⟩, "("⟩, ⟨.name "x", ⟨1, 2, 1, 2⟩, "x"⟩,
    ⟨.symbol .closeParen, ⟨2, 3, 1, 3⟩, ")"⟩, ⟨.symbol .assign, ⟨4, 5, 1, 5⟩, "="⟩,
    ⟨.number 1, ⟨6, 7, 1, 7⟩, "1"⟩], ⟨7, 7, 1, 8⟩⟩

/-- A name in parentheses is assigned to, though no name stands right before the `=`. -/
theorem assignment_parenthesized :
    parse parenthesizedTokens =
        .ok [.expr (.assign "x" (.number 1 ⟨6, 7, 1, 7⟩) ⟨1, 7, 1, 2⟩)] ∧
      ¬ ∃ before label sign after name,
        parenthesizedTokens.items = before ++ label :: sign :: after ∧
        label.kind = .name name ∧ sign.kind = .symbol .assign := by
  refine ⟨by cbv, ?_⟩
  rintro ⟨before, label, sign, after, name, hitems, hlabel, hsign⟩
  have hchain : parenthesizedTokens.items.IsChain fun label sign =>
      sign.kind = .symbol .assign → ∀ name, label.kind ≠ .name name := by
    simp [parenthesizedTokens]
  rw [hitems] at hchain
  exact (List.isChain_append_cons_cons.1 hchain).2.1 hsign name hlabel

end QuantumScript
