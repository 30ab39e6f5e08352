import QuantumScript.Proofs.Grammar.Stmt

/-!
# The expressions in a program

`Expr.parts` lists an expression with all expressions in it, and `partsAmong` those of a program.
Each of them is spelled by some of the tokens that spell the whole, one behind the other
(`Spells.spelledIn`, `SpellsClause.spelledIn`). The name that an assignment binds is no part, and
neither is the member that a method call was read from.
-/

namespace QuantumScript

mutual

/-- An expression and all expressions in it. -/
def Expr.parts : Expr → List Expr
  | .binary op left right span => .binary op left right span :: (left.parts ++ right.parts)
  | .logical op left right span => .logical op left right span :: (left.parts ++ right.parts)
  | .unary op operand span => .unary op operand span :: operand.parts
  | .assign name value span => .assign name value span :: value.parts
  | .call callee args span => .call callee args span :: (callee.parts ++ partsIn args)
  | .methodCall object name args span =>
    .methodCall object name args span :: (object.parts ++ partsIn args)
  | .member object name span => .member object name span :: object.parts
  | .array elements span => .array elements span :: partsIn elements
  | .index object place span => .index object place span :: (object.parts ++ place.parts)
  | e => [e]

/-- Some expressions and all expressions in them. -/
def partsIn : List Expr → List Expr
  | [] => []
  | e :: es => e.parts ++ partsIn es

end

mutual

/-- All expressions in a statement. -/
def Stmt.parts : Stmt → List Expr
  | .expr value | .giveBack (some value) _ => value.parts
  | .block body _ | .function _ _ body _ => partsAmong body
  | .cond condition yes none _ => condition.parts ++ yes.parts
  | .cond condition yes (some no) _ => condition.parts ++ (yes.parts ++ no.parts)
  | .whileLoop condition body _ => condition.parts ++ body.parts
  | .forLoop _ items body _ => items.parts ++ body.parts
  | .giveBack none _ | .importing _ _ _ => []

/-- All expressions in some statements. -/
def partsAmong : List Stmt → List Expr
  | [] => []
  | s :: ss => s.parts ++ partsAmong ss

end

/-- An expression is a part of itself. -/
theorem Expr.mem_parts_self (e : Expr) : e ∈ e.parts := by
  cases e <;> simp [Expr.parts]

/-- A literal or a name has no other parts. -/
theorem Token.parts_of_atom? {t : Token} {e : Expr} (h : t.atom? = some e) : e.parts = [e] := by
  unfold atom? at h
  split at h <;> cases h <;> rfl

/-- The parts of two operands and the operator between them. -/
theorem Joint.parts_join (joint : Joint) (left right : Expr) :
    (joint.join left right).parts = joint.join left right :: (left.parts ++ right.parts) := by
  cases joint <;> rfl

/-- The parts of a call of what is no member. -/
theorem Expr.parts_called {callee : Expr} {args : List Expr} {span : Span}
    (h : callee.isMember = false) :
    (callee.called args span).parts =
      callee.called args span :: (callee.parts ++ partsIn args) := by
  cases callee with
  | member => cases h
  | _ => rfl

/-- A part of a call is the call or a part of what is called or of the arguments. -/
theorem Expr.mem_parts_called {p callee : Expr} {args : List Expr} {span : Span}
    (h : p ∈ (callee.called args span).parts) :
    p = callee.called args span ∨ p ∈ callee.parts ∨ p ∈ partsIn args := by
  cases hc : callee.isMember with
  | false => simpa [parts_called hc] using h
  | true =>
    -- A member is dropped when it is called, but not what it is a member of.
    cases callee <;> cases hc
    simp only [called, parts, List.mem_cons, List.mem_append] at h ⊢
    exact h.imp_right (Or.imp_left .inr)

/-- The parts of what is called and of the arguments are parts of the call, but for a member. -/
theorem Expr.mem_parts_called_of {p callee : Expr} {args : List Expr} {span : Span}
    (hp : p.isMember = false) (h : p ∈ callee.parts ∨ p ∈ partsIn args) :
    p ∈ (callee.called args span).parts := by
  cases hc : callee.isMember with
  | false =>
    rw [parts_called hc]
    exact List.mem_cons_of_mem _ (List.mem_append.2 h)
  | true =>
    cases callee <;> cases hc
    have hne {object : Expr} {name : String} {inner : Span} : p ≠ .member object name inner := by
      rintro rfl
      cases hp
    simp only [called, parts, List.mem_cons, List.mem_append, hne, false_or] at h ⊢
    exact .inr h

namespace Grammar

variable {p : Expr} {ts us : List Token}

/-- All expressions in a phrase. -/
def Phrase.parts : Phrase → List Expr
  | .one _ e => e.parts
  | .many es => partsIn es

/-- All expressions in a clause. -/
def Clause.parts : Clause → List Expr
  | .stmt s => s.parts
  | .block ss _ | .body ss => partsAmong ss

/-- An expression is spelled by tokens that stand one behind the other among some tokens. -/
def SpelledIn (p : Expr) (ts : List Token) : Prop :=
  ∃ level us, us <:+: ts ∧ Spells (.one level p) us

/-- What spells an expression does so in itself. -/
theorem Spells.inSelf {level : Level} (h : Spells (.one level p) ts) : SpelledIn p ts :=
  ⟨level, ts, List.infix_refl ts, h⟩

/-- What is spelled among some tokens is spelled among more. -/
theorem SpelledIn.mono (h : SpelledIn p us) (hts : us <:+: ts) : SpelledIn p ts := by
  obtain ⟨level, vs, hvs, hs⟩ := h
  exact ⟨level, vs, hvs.trans hts, hs⟩

/-- What is spelled among the middle ones of some tokens. -/
theorem SpelledIn.within (h : SpelledIn p us) (before after : List Token) :
    SpelledIn p (before ++ (us ++ after)) :=
  h.mono ⟨before, after, by simp⟩

/-- What is spelled among the last ones of some tokens. -/
theorem SpelledIn.behind (h : SpelledIn p us) (before : List Token) :
    SpelledIn p (before ++ us) :=
  h.mono List.infix_append_right

/-- What is spelled among the first ones of some tokens. -/
theorem SpelledIn.before (h : SpelledIn p us) (after : List Token) : SpelledIn p (us ++ after) :=
  h.mono List.infix_append_left

/-- Every part of a phrase is spelled among the tokens of the phrase. -/
theorem Spells.spelledIn {phrase : Phrase} (h : Spells phrase ts) (hp : p ∈ phrase.parts) :
    SpelledIn p ts := by
  -- The whole is spelled by all tokens; its other parts are parts of something spelled by fewer.
  induction h with
  | atom atom =>
    rw [Phrase.parts, Token.parts_of_atom? atom, List.mem_singleton] at hp
    subst hp
    exact ⟨.primary, _, List.infix_refl _, .atom atom⟩
  | paren _ _ _ _ _ ih => exact ((ih hp).within _ _).behind [_]
  | array opens elements closes ih =>
    rcases List.mem_cons.1 hp with rfl | hp
    · exact ⟨.primary, _, List.infix_refl _, .array opens elements closes⟩
    · exact (ih hp).within [_] [_]
  | call _ function opens arguments closes ihc iha =>
    rcases Expr.mem_parts_called hp with rfl | hp | hp
    · exact (Spells.call (Level.le_refl _) function opens arguments closes).inSelf
    · exact (ihc hp).before _
    · exact ((iha hp).within [_] [_]).behind _
  | member _ owner dotted labelled ih =>
    rcases List.mem_cons.1 hp with rfl | hp
    · exact (Spells.member (Level.le_refl _) owner dotted labelled).inSelf
    · exact (ih hp).before _
  | index _ owner opens hbefore place hafter closes iho ihp =>
    rcases List.mem_cons.1 hp with rfl | hp
    · exact (Spells.index (Level.le_refl _) owner opens hbefore place hafter closes).inSelf
    rcases List.mem_append.1 hp with hp | hp
    · exact (iho hp).before _
    · exact (((ihp hp).within _ _).behind [_]).behind _
  | unary _ signed inner ih =>
    rcases List.mem_cons.1 hp with rfl | hp
    · exact (Spells.unary (Level.le_refl _) signed inner).inSelf
    · exact (ih hp).behind [_]
  | @joined _ _ joint _ _ _ _ _ first signed second ihl ihr =>
    rw [Phrase.parts, joint.parts_join] at hp
    rcases List.mem_cons.1 hp with rfl | hp
    · exact (Spells.joined (Level.le_refl _) first signed second).inSelf
    rcases List.mem_append.1 hp with hp | hp
    · exact (ihl hp).before _
    · exact ((ihr hp).behind [_]).behind _
  | assign target signed source _ ihs =>
    rcases List.mem_cons.1 hp with rfl | hp
    · exact (Spells.assign target signed source).inSelf
    · exact ((ihs hp).behind [_]).behind _
  | none => cases hp
  | last _ _ _ ih =>
    rw [Phrase.parts, partsIn, partsIn, List.append_nil] at hp
    exact (ih hp).within _ _
  | more _ _ _ _ _ ihe ihr =>
    rcases List.mem_append.1 hp with hp | hp
    · exact (ihe hp).within _ _
    · exact ((((ihr hp).behind [_]).behind _).behind _).behind _

/-- An expression in parentheses after a keyword is spelled with its parts. -/
theorem SpellsCondition.spelledIn {e : Expr} (h : SpellsCondition e ts) (hp : p ∈ e.parts) :
    SpelledIn p ts := by
  obtain ⟨_, inner, _⟩ := h
  exact (inner.spelledIn hp).within [_] [_]

/-- The items after `for` are spelled with their parts. -/
theorem SpellsForClause.spelledIn {binder : String} {e : Expr} (h : SpellsForClause binder e ts)
    (hp : p ∈ e.parts) : SpelledIn p ts := by
  obtain ⟨_, _, _, inner, _⟩ := h
  exact (inner.spelledIn hp).within [_, _, _] [_]

/-- Every expression in a clause is spelled among the tokens of the clause. -/
theorem SpellsClause.spelledIn {apart : Stmt → List Token → Prop} {clause : Clause}
    (h : SpellsClause apart clause ts) (hp : p ∈ clause.parts) : SpelledIn p ts := by
  induction h with
  | expr inner => exact inner.spelledIn hp
  | block _ ih => exact ih hp
  | cond _ test _ _ ih | whileLoop _ test _ _ ih =>
    rcases List.mem_append.1 hp with hp | hp
    · exact ((test.spelledIn hp).before _).behind [_]
    · exact (((ih hp).behind _).behind _).behind [_]
  | condElse _ test _ _ _ _ _ _ _ ihf ihs =>
    rcases List.mem_append.1 hp with hp | hp
    · exact ((test.spelledIn hp).before _).behind [_]
    rcases List.mem_append.1 hp with hp | hp
    · exact (((ihf hp).within _ _).behind _).behind [_]
    · exact ((((((ihs hp).behind _).behind [_]).behind _).behind _).behind _).behind _ |>.behind [_]
  | forLoop _ clause _ _ ih =>
    rcases List.mem_append.1 hp with hp | hp
    · exact ((clause.spelledIn hp).before _).behind [_]
    · exact (((ih hp).behind _).behind _).behind [_]
  | function _ _ _ _ _ _ _ ih =>
    exact (((ih hp).behind (_ :: _)).behind _).behind [_, _, _]
  | giveBackValue _ inner => exact (inner.spelledIn hp).behind [_]
  | giveBack | importing | importingAs | nil => cases hp
  | braces _ _ _ _ ih => exact ((ih hp).within _ _).behind [_]
  | cons _ _ _ _ ihf iho =>
    rcases List.mem_append.1 hp with hp | hp
    · exact (ihf hp).before _
    · exact ((iho hp).behind _).behind _

end Grammar

end QuantumScript
