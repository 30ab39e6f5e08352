import QuantumScript.Proofs.Grammar.Level

/-!
# The grammar of expressions

`Spells` relates expressions to the tokens that spell them. An expression at a level is spelled with
operands at the levels of its operator, and any expression may be put in parentheses, also where it
needs none. Line ends may stand inside parentheses and brackets, next to them and around the items
of a list, and nowhere else.

The regions of the tree are those of the tokens: an operator's region runs from its left operand to
its right one, and parentheses belong to no region.
-/

namespace QuantumScript

namespace Grammar

/-- All of some tokens are line ends. -/
def LineEnds (ts : List Token) : Prop :=
  ∀ t ∈ ts, t.isNewline

/-- What some tokens of an expression may spell. -/
inductive Phrase
  /-- One expression, where expressions of a level or a tighter one may stand. -/
  | one (level : Level) (e : Expr)
  /-- Any number of expressions, divided by commas. -/
  | many (es : List Expr)

/-- Tokens that spell a phrase. -/
inductive Spells : Phrase → List Token → Prop
  /-- A literal or a name. -/
  | atom {level : Level} {t : Token} {e : Expr} (atom : t.atom? = some e) :
    Spells (.one level e) [t]
  /-- An expression in parentheses. -/
  | paren {level : Level} {opening closing : Token} {e : Expr} {before ts after : List Token}
    (opens : opening.kind = .symbol .openParen) (hbefore : LineEnds before)
    (inner : Spells (.one .assignment e) ts) (hafter : LineEnds after)
    (closes : closing.kind = .symbol .closeParen) :
    Spells (.one level e) (opening :: (before ++ (ts ++ (after ++ [closing]))))
  /-- An array. -/
  | array {level : Level} {opening closing : Token} {es : List Expr} {ts : List Token}
    (opens : opening.kind = .symbol .openBracket) (elements : Spells (.many es) ts)
    (closes : closing.kind = .symbol .closeBracket) :
    Spells (.one level (.array es (opening.span.through closing.span)))
      (opening :: (ts ++ [closing]))
  /-- A call; a call of a member is a method call. -/
  | call {level : Level} {opening closing : Token} {callee : Expr} {args : List Expr}
    {cs ts : List Token} (fits : level ≤ .suffix) (function : Spells (.one .suffix callee) cs)
    (opens : opening.kind = .symbol .openParen) (arguments : Spells (.many args) ts)
    (closes : closing.kind = .symbol .closeParen) :
    Spells (.one level (callee.called args (callee.span.through closing.span)))
      (cs ++ opening :: (ts ++ [closing]))
  /-- A member. -/
  | member {level : Level} {dot label : Token} {object : Expr} {name : String} {os : List Token}
    (fits : level ≤ .suffix) (owner : Spells (.one .suffix object) os)
    (dotted : dot.kind = .symbol .dot) (labelled : label.kind = .name name) :
    Spells (.one level (.member object name (object.span.through label.span))) (os ++ [dot, label])
  /-- An item of an array. -/
  | index {level : Level} {opening closing : Token} {object position : Expr}
    {os before ts after : List Token} (fits : level ≤ .suffix)
    (owner : Spells (.one .suffix object) os) (opens : opening.kind = .symbol .openBracket)
    (hbefore : LineEnds before) (place : Spells (.one .assignment position) ts)
    (hafter : LineEnds after) (closes : closing.kind = .symbol .closeBracket) :
    Spells (.one level (.index object position (object.span.through closing.span)))
      (os ++ opening :: (before ++ (ts ++ (after ++ [closing]))))
  /-- A unary operator and its operand. -/
  | unary {level : Level} {sign : Token} {op : UnaryOp} {operand : Expr} {ts : List Token}
    (fits : level ≤ .unary) (signed : sign.kind = op.kind)
    (inner : Spells (.one .unary operand) ts) :
    Spells (.one level (.unary op operand (sign.span.through operand.span))) (sign :: ts)
  /-- Two operands and the operator between them. -/
  | joined {level : Level} {sign : Token} {joint : Joint} {left right : Expr} {ls rs : List Token}
    (fits : level ≤ joint.level) (first : Spells (.one joint.leftLevel left) ls)
    (signed : sign.kind = joint.kind) (second : Spells (.one joint.rightLevel right) rs) :
    Spells (.one level (joint.join left right)) (ls ++ sign :: rs)
  /-- An assignment to a name. -/
  | assign {sign : Token} {name : String} {span : Span} {value : Expr} {ns ts : List Token}
    (target : Spells (.one .disjunction (.name name span)) ns)
    (signed : sign.kind = .symbol .assign) (source : Spells (.one .assignment value) ts) :
    Spells (.one .assignment (.assign name value (span.through value.span))) (ns ++ sign :: ts)
  /-- No expressions. -/
  | none {ts : List Token} (blank : LineEnds ts) : Spells (.many []) ts
  /-- The last of some expressions. -/
  | last {e : Expr} {before ts after : List Token} (hbefore : LineEnds before)
    (item : Spells (.one .assignment e) ts) (hafter : LineEnds after) :
    Spells (.many [e]) (before ++ (ts ++ after))
  /-- An expression with others after it. -/
  | more {comma : Token} {e next : Expr} {es : List Expr} {before ts after others : List Token}
    (hbefore : LineEnds before) (item : Spells (.one .assignment e) ts) (hafter : LineEnds after)
    (divided : comma.kind = .symbol .comma) (rest : Spells (.many (next :: es)) others) :
    Spells (.many (e :: next :: es)) (before ++ (ts ++ (after ++ comma :: others)))

/-! ## The first token of an expression -/

/-- A token that makes an expression by itself may start one. -/
theorem startsPlain_of_atom? {t : Token} {e : Expr} (h : t.atom? = some e) : t.startsPlain := by
  unfold Token.atom? at h
  unfold Token.startsPlain
  split at h <;> simp_all

/-- What the first token of a phrase may be: an expression at the level of the suffixes or a tighter
one starts with no unary operator. -/
def Phrase.StartsWith (t : Token) : Phrase → Prop
  | .one level _ => t.startsExpr ∧ (Level.suffix ≤ level → t.startsPlain)
  | .many _ => True

/-- A token that starts a plain expression may start one at every level. -/
theorem Phrase.startsWith_of_startsPlain {t : Token} (h : t.startsPlain) (level : Level)
    (e : Expr) : (Phrase.one level e).StartsWith t :=
  ⟨by simp [Token.startsExpr, h], fun _ => h⟩

/-- Every expression is spelled with a first token, which may start it. -/
theorem Spells.startsWith {phrase : Phrase} {ts : List Token} (h : Spells phrase ts) :
    ∀ level e, phrase = .one level e → ∃ t rest, ts = t :: rest ∧ phrase.StartsWith t := by
  induction h with
  | atom atom =>
    intro level e _
    exact ⟨_, [], rfl, Phrase.startsWith_of_startsPlain (startsPlain_of_atom? atom) _ _⟩
  | paren opens | array opens =>
    intro level e _
    exact ⟨_, _, rfl, Phrase.startsWith_of_startsPlain (by simp [Token.startsPlain, opens]) _ _⟩
  | call _ _ _ _ _ ih | member _ _ _ _ ih | index _ _ _ _ _ _ _ ih =>
    intro level e _
    obtain ⟨t, rest, rfl, -, ht⟩ := ih _ _ rfl
    exact ⟨t, _, rfl, Phrase.startsWith_of_startsPlain (ht (Level.le_refl _)) _ _⟩
  | @unary level sign op operand ts fits signed =>
    intro _ _ _
    refine ⟨_, _, rfl, ?_, fun hl => ?_⟩
    · cases op <;> simp [Token.startsExpr, signed, UnaryOp.kind]
    · exact absurd (Level.le_trans hl fits) (by decide)
  | @joined level sign joint left right ls rs fits first signed second ih =>
    intro _ _ _
    obtain ⟨t, rest, rfl, ht, -⟩ := ih _ _ rfl
    refine ⟨t, _, rfl, ht, fun hl => ?_⟩
    have hs := Level.le_trans (Level.le_trans hl fits) joint.level_le_power
    exact absurd hs (by decide)
  | assign _ _ _ ih =>
    intro _ _ _
    obtain ⟨t, rest, rfl, ht, -⟩ := ih _ _ rfl
    exact ⟨t, _, rfl, ht, fun hl => absurd hl (by decide)⟩
  | none | last | more =>
    intro level e h
    cases h

/-- Every expression is spelled with a first token, which may start an expression. -/
theorem Spells.starts {level : Level} {e : Expr} {ts : List Token} (h : Spells (.one level e) ts) :
    ∃ t rest, ts = t :: rest ∧ t.startsExpr := by
  obtain ⟨t, rest, hts, ht, -⟩ := h.startsWith _ _ rfl
  exact ⟨t, rest, hts, ht⟩

/-- A looser expression may be spelled as a tighter one is. -/
theorem Spells.loosen {phrase : Phrase} {ts : List Token} (h : Spells phrase ts) :
    ∀ level e, phrase = .one level e → ∀ looser ≤ level, Spells (.one looser e) ts := by
  cases h with
  | atom atom =>
    rintro _ _ ⟨⟩ looser _
    exact .atom atom
  | paren opens hbefore inner hafter closes =>
    rintro _ _ ⟨⟩ looser _
    exact .paren opens hbefore inner hafter closes
  | array opens elements closes =>
    rintro _ _ ⟨⟩ looser _
    exact .array opens elements closes
  | call fits function opens arguments closes =>
    rintro _ _ ⟨⟩ looser hl
    exact .call (Level.le_trans hl fits) function opens arguments closes
  | member fits owner dotted labelled =>
    rintro _ _ ⟨⟩ looser hl
    exact .member (Level.le_trans hl fits) owner dotted labelled
  | index fits owner opens hbefore place hafter closes =>
    rintro _ _ ⟨⟩ looser hl
    exact .index (Level.le_trans hl fits) owner opens hbefore place hafter closes
  | unary fits signed inner =>
    rintro _ _ ⟨⟩ looser hl
    exact .unary (Level.le_trans hl fits) signed inner
  | joined fits first signed second =>
    rintro _ _ ⟨⟩ looser hl
    exact .joined (Level.le_trans hl fits) first signed second
  | assign target signed source =>
    rintro _ _ ⟨⟩ looser hl
    have : looser = .assignment := by
      revert hl
      cases looser <;> decide
    subst this
    exact .assign target signed source
  | none | last | more =>
    intro _ _ h
    cases h

/-- Line ends in front of a token that is none are skipped. -/
theorem skipNewlines_append {before rest : List Token} {t : Token} (hb : LineEnds before)
    (ht : t.isNewline = false) : Token.skipNewlines (before ++ t :: rest) = t :: rest := by
  unfold Token.skipNewlines
  rw [List.dropWhile_append_of_pos hb, List.dropWhile_cons_of_neg (by simp [ht])]

/-- Line ends in front of an expression are skipped. -/
theorem Spells.skipNewlines {level : Level} {e : Expr} {before ts : List Token}
    (h : Spells (.one level e) ts) (hb : LineEnds before) (rest : List Token) :
    Token.skipNewlines (before ++ (ts ++ rest)) = ts ++ rest := by
  obtain ⟨t, us, rfl, ht⟩ := h.starts
  exact skipNewlines_append hb (Token.isNewline_of_startsExpr ht)

end Grammar

end QuantumScript
