import QuantumScript.Proofs.Grammar.Stmt

/-!
# Writing programs down

A program is rendered by tokens that spell it, wherever its parts were first read. Only well-shaped
trees can be spelled (`Spells.wellShaped`, `SpellsClause.wellShaped`), and every well-shaped program
has a rendering (`exists_renders`): the one that puts every expression in parentheses.
-/

namespace QuantumScript

open Grammar

/-- Tokens that write a program down: its statements with separators between them, and each
expression in parentheses at least where it is too loose for its place. -/
def Program.Renders (program : Program) (ts : List Token) : Prop :=
  ∃ read : Program, read.bare = program.bare ∧ SpellsProgram Separated read ts

/-! ## What is spelled is well shaped -/

namespace Grammar

/-- In no part of a phrase is a member called. -/
def Phrase.WellShaped : Phrase → Prop
  | .one _ e => e.WellShaped
  | .many es => AllWellShaped es

/-- The statements of a clause are well shaped. -/
def Clause.WellShaped : Clause → Prop
  | .stmt s => s.WellShaped
  | .block ss _ | .body ss => Program.WellShaped ss

end Grammar

/-- Calling a well-shaped expression gives a well-shaped one: a called member is a method. -/
theorem Expr.WellShaped.called {callee : Expr} {args : List Expr} (hc : callee.WellShaped)
    (ha : AllWellShaped args) (span : Span) : (callee.called args span).WellShaped := by
  cases callee with
  | member object method last =>
    simp only [Expr.WellShaped] at hc
    simp only [Expr.called, Expr.WellShaped]
    exact ⟨hc, ha⟩
  | _ =>
    simp only [Expr.called]
    rw [Expr.WellShaped]
    exact ⟨rfl, hc, ha⟩

/-- Joining two well-shaped expressions gives a well-shaped one. -/
theorem Joint.wellShaped_join {joint : Joint} {left right : Expr} (hl : left.WellShaped)
    (hr : right.WellShaped) : (joint.join left right).WellShaped := by
  cases joint <;> exact ⟨hl, hr⟩

namespace Grammar

/-- Every phrase that is spelled is well shaped. -/
theorem Spells.wellShaped {phrase : Phrase} {ts : List Token} (h : Spells phrase ts) :
    phrase.WellShaped := by
  induction h with
  | atom atom =>
    unfold Token.atom? at atom
    split at atom <;> cases atom <;> trivial
  | paren _ _ _ _ _ ih => exact ih
  | array _ _ _ ih => exact ih
  | call _ _ _ _ _ ihc iha => exact Expr.WellShaped.called ihc iha _
  | member _ _ _ _ ih => exact ih
  | index _ _ _ _ _ _ _ iho ihp => exact ⟨iho, ihp⟩
  | unary _ _ _ ih => exact ih
  | joined _ _ _ _ ihl ihr => exact Joint.wellShaped_join ihl ihr
  | assign _ _ _ _ ih => exact ih
  | none => trivial
  | last _ _ _ ih => exact ⟨ih, trivial⟩
  | more _ _ _ _ _ ih ihr => exact ⟨ih, ihr⟩

/-- Every clause that is spelled is well shaped. -/
theorem SpellsClause.wellShaped {apart : Stmt → List Token → Prop} {clause : Clause}
    {ts : List Token} (h : SpellsClause apart clause ts) : clause.WellShaped := by
  induction h with
  | expr inner => exact inner.wellShaped
  | block _ ih => exact ih
  | cond _ test _ _ ih =>
    obtain ⟨_, inner, _⟩ := test
    exact ⟨inner.wellShaped, rfl, ih⟩
  | condElse _ test _ _ _ _ _ branch _ ihf ihs =>
    obtain ⟨_, inner, _⟩ := test
    exact ⟨inner.wellShaped, rfl, ihf, branch, ihs⟩
  | whileLoop _ test _ _ ih =>
    obtain ⟨_, inner, _⟩ := test
    exact ⟨inner.wellShaped, rfl, ih⟩
  | forLoop _ clause _ _ ih =>
    obtain ⟨_, _, _, inner, _⟩ := clause
    exact ⟨inner.wellShaped, rfl, ih⟩
  | function _ _ _ _ _ _ _ ih => exact ih
  | giveBack => trivial
  | giveBackValue _ inner => exact inner.wellShaped
  | importing | importingAs => trivial
  | braces _ _ _ _ ih => exact ih
  | nil => trivial
  | cons _ _ _ _ ihf iho => exact ⟨ihf, iho⟩

/-- Every program that is spelled is well shaped. -/
theorem SpellsProgram.wellShaped {apart : Stmt → List Token → Prop} {program : Program}
    {ts : List Token} (h : SpellsProgram apart program ts) : program.WellShaped := by
  obtain ⟨_, _, _, hs, -⟩ := h
  exact hs.wellShaped

end Grammar

/-! ## What is well shaped is spelled -/

/-- The region of an expression does not tell whether it is a member. -/
theorem Expr.isMember_bare (e : Expr) : e.bare.isMember = e.isMember := by
  cases e <;> rfl

/-- The region of a statement does not tell whether it may follow `else`. -/
theorem Stmt.isBranch_bare (s : Stmt) : s.bare.isBranch = s.isBranch := by
  cases s with
  | cond condition yes no span => cases no <;> rfl
  | giveBack value span => cases value <;> rfl
  | _ => rfl

namespace Grammar

/-- A token of a kind, wherever it stands. -/
def word (kind : Token.Kind) : Token := ⟨kind, .anywhere, ""⟩

/-- A token of a kind is of that kind. -/
theorem word_kind (kind : Token.Kind) : (word kind).kind = kind := rfl

/-- No tokens are line ends. -/
theorem lineEnds_nil : LineEnds [] := by
  simp [LineEnds]

/-- An expression is spelled by tokens that may stand at every level. -/
def Spellable (e : Expr) : Prop :=
  ∃ read ts, read.bare = e.bare ∧ ∀ level, Spells (.one level read) ts

/-- Expressions divided by commas are spelled by some tokens. -/
def AllSpellable (es : List Expr) : Prop :=
  ∃ read ts, bareExprs read = bareExprs es ∧ Spells (.many read) ts

/-- In parentheses, an expression may stand at every level. -/
theorem spellable_of_spells {e read : Expr} {ts : List Token} (hb : read.bare = e.bare)
    (h : Spells (.one .assignment read) ts) : Spellable e :=
  ⟨read, word (.symbol .openParen) :: ([] ++ (ts ++ ([] ++ [word (.symbol .closeParen)]))), hb,
    fun _ => .paren rfl lineEnds_nil h lineEnds_nil rfl⟩

/-- What a token makes by itself may stand at every level. -/
theorem spellable_of_atom? {e read : Expr} (t : Token) (h : t.atom? = some read)
    (hb : read.bare = e.bare) : Spellable e :=
  ⟨read, [t], hb, fun _ => .atom h⟩

/-- Two spellable operands can be joined by every operator. -/
theorem spellable_join (joint : Joint) {e left right : Expr}
    (hb : (joint.join left right).bare = e.bare) (hl : Spellable left) (hr : Spellable right) :
    Spellable e := by
  obtain ⟨l, ls, hbl, hl⟩ := hl
  obtain ⟨r, rs, hbr, hr⟩ := hr
  have h : Spells (.one .assignment (joint.join l r)) (ls ++ word joint.kind :: rs) :=
    .joined (Level.assignment_le _) (hl _) rfl (hr _)
  exact spellable_of_spells ((joint.bare_join hbl hbr).trans hb) h

/-- A spellable expression can be called, if it is no member. -/
theorem spellable_call {callee : Expr} {args : List Expr} {span : Span}
    (hm : callee.isMember = false) (hc : Spellable callee) (ha : AllSpellable args) :
    Spellable (.call callee args span) := by
  obtain ⟨c, cs, hbc, hc⟩ := hc
  obtain ⟨as, ts, hba, ha⟩ := ha
  have h : Spells
      (.one .assignment (c.called as (c.span.through (word (.symbol .closeParen)).span)))
      (cs ++ word (.symbol .openParen) :: (ts ++ [word (.symbol .closeParen)])) :=
    .call (by decide) (hc _) rfl ha rfl
  have hm : c.isMember = false := by rw [← c.isMember_bare, hbc, callee.isMember_bare, hm]
  -- Only the call of a member would be read as something else, the call of a method.
  have hcalled : c.called as (c.span.through (word (.symbol .closeParen)).span) =
      .call c as (c.span.through (word (.symbol .closeParen)).span) := by
    cases c with
    | member => cases hm
    | _ => rfl
  rw [hcalled] at h
  refine spellable_of_spells ?_ h
  simp only [Expr.bare, hbc, hba]

/-- A method of a spellable expression can be called. -/
theorem spellable_methodCall {object : Expr} {method : String} {args : List Expr} {span : Span}
    (ho : Spellable object) (ha : AllSpellable args) :
    Spellable (.methodCall object method args span) := by
  obtain ⟨o, os, hbo, ho⟩ := ho
  obtain ⟨as, ts, hba, ha⟩ := ha
  have hm : Spells (.one .suffix (.member o method (o.span.through (word (.name method)).span)))
      (os ++ [word (.symbol .dot), word (.name method)]) :=
    .member (by decide) (ho _) rfl rfl
  have h := Spells.call (by decide : Level.assignment ≤ .suffix) hm
    (rfl : (word (.symbol .openParen)).kind = _) ha (rfl : (word (.symbol .closeParen)).kind = _)
  refine spellable_of_spells ?_ h
  simp only [Expr.called, Expr.bare, hbo, hba]

mutual

/-- Every well-shaped expression can be spelled. -/
theorem spellable_of_wellShaped (e : Expr) (h : e.WellShaped) : Spellable e := by
  -- Each operand is spelled in parentheses, so it fits every place.
  cases e with
  | number value span => exact spellable_of_atom? (word (.number value)) rfl rfl
  | text value span => exact spellable_of_atom? (word (.text value)) rfl rfl
  | bool value span =>
    cases value with
    | true => exact spellable_of_atom? (word (.keyword .yes)) rfl rfl
    | false => exact spellable_of_atom? (word (.keyword .no)) rfl rfl
  | null span => exact spellable_of_atom? (word (.keyword .null)) rfl rfl
  | name name span => exact spellable_of_atom? (word (.name name)) rfl rfl
  | binary op left right span =>
    exact spellable_join (.binary op) rfl (spellable_of_wellShaped left h.1)
      (spellable_of_wellShaped right h.2)
  | logical op left right span =>
    exact spellable_join (.logical op) rfl (spellable_of_wellShaped left h.1)
      (spellable_of_wellShaped right h.2)
  | unary op operand span =>
    obtain ⟨o, ts, hb, ho⟩ := spellable_of_wellShaped operand h
    have hs : Spells (.one .assignment (.unary op o ((word op.kind).span.through o.span)))
        (word op.kind :: ts) := .unary (by decide) rfl (ho _)
    refine spellable_of_spells ?_ hs
    simp only [Expr.bare, hb]
  | assign name value span =>
    obtain ⟨v, ts, hb, hv⟩ := spellable_of_wellShaped value h
    have hs : Spells (.one .assignment (.assign name v
        ((word (.name name)).span.through v.span)))
        ([word (.name name)] ++ word (.symbol .assign) :: ts) := .assign (.atom rfl) rfl (hv _)
    refine spellable_of_spells ?_ hs
    simp only [Expr.bare, hb]
  | call callee args span =>
    exact spellable_call h.1 (spellable_of_wellShaped callee h.2.1)
      (allSpellable_of_wellShaped args h.2.2)
  | methodCall object method args span =>
    exact spellable_methodCall (spellable_of_wellShaped object h.1)
      (allSpellable_of_wellShaped args h.2)
  | member object name span =>
    obtain ⟨o, ts, hb, ho⟩ := spellable_of_wellShaped object h
    have hs : Spells (.one .assignment (.member o name (o.span.through (word (.name name)).span)))
        (ts ++ [word (.symbol .dot), word (.name name)]) := .member (by decide) (ho _) rfl rfl
    refine spellable_of_spells ?_ hs
    simp only [Expr.bare, hb]
  | array elements span =>
    obtain ⟨es, ts, hb, hes⟩ := allSpellable_of_wellShaped elements h
    have hs : Spells (.one .assignment (.array es
        ((word (.symbol .openBracket)).span.through (word (.symbol .closeBracket)).span)))
        (word (.symbol .openBracket) :: (ts ++ [word (.symbol .closeBracket)])) :=
      .array rfl hes rfl
    refine spellable_of_spells ?_ hs
    simp only [Expr.bare, hb]
  | index object position span =>
    obtain ⟨o, ts, hbo, ho⟩ := spellable_of_wellShaped object h.1
    obtain ⟨p, us, hbp, hp⟩ := spellable_of_wellShaped position h.2
    have hs : Spells (.one .assignment (.index o p
        (o.span.through (word (.symbol .closeBracket)).span)))
        (ts ++ word (.symbol .openBracket) ::
          ([] ++ (us ++ ([] ++ [word (.symbol .closeBracket)])))) :=
      .index (by decide) (ho _) rfl lineEnds_nil (hp _) lineEnds_nil rfl
    refine spellable_of_spells ?_ hs
    simp only [Expr.bare, hbo, hbp]

/-- All of some well-shaped expressions can be spelled together. -/
theorem allSpellable_of_wellShaped (es : List Expr) (h : AllWellShaped es) : AllSpellable es := by
  cases es with
  | nil => exact ⟨[], [], rfl, .none lineEnds_nil⟩
  | cons e es =>
    obtain ⟨read, ts, hb, hs⟩ := spellable_of_wellShaped e h.1
    obtain ⟨reads, us, hbs, hss⟩ := allSpellable_of_wellShaped es h.2
    -- A comma stands only before another item.
    cases reads with
    | nil =>
      refine ⟨[read], [] ++ (ts ++ []), ?_, .last lineEnds_nil (hs _) lineEnds_nil⟩
      simp only [bareExprs, hb, ← hbs]
    | cons next others =>
      refine ⟨read :: next :: others, [] ++ (ts ++ ([] ++ word (.symbol .comma) :: us)), ?_,
        .more lineEnds_nil (hs _) lineEnds_nil rfl hss⟩
      rw [bareExprs, hb, hbs, bareExprs]

end

/-- A spellable expression may follow a keyword in parentheses. -/
theorem Spellable.condition {e : Expr} (h : Spellable e) :
    ∃ read ts, read.bare = e.bare ∧ SpellsCondition read ts := by
  obtain ⟨read, ts, hb, hs⟩ := h
  have hc : SpellsCondition read
      (word (.symbol .openParen) :: (ts ++ [word (.symbol .closeParen)])) :=
    .intro rfl (hs _) rfl
  exact ⟨read, _, hb, hc⟩

/-- A spellable expression may follow `for` and a name in parentheses. -/
theorem Spellable.forClause {e : Expr} (h : Spellable e) (binder : String) :
    ∃ read ts, read.bare = e.bare ∧ SpellsForClause binder read ts := by
  obtain ⟨read, ts, hb, hs⟩ := h
  have hc : SpellsForClause binder read (word (.symbol .openParen) :: word (.name binder) ::
      word (.keyword .inside) :: (ts ++ [word (.symbol .closeParen)])) :=
    .intro rfl rfl rfl (hs _) rfl
  exact ⟨read, _, hb, hc⟩

/-- All names can be spelled together. -/
theorem exists_spellsNames (names : List String) : ∃ ts, SpellsNames names ts := by
  induction names with
  | nil => exact ⟨[], .none lineEnds_nil⟩
  | cons name names ih =>
    obtain ⟨ts, hs⟩ := ih
    cases names with
    | nil => exact ⟨_, .last lineEnds_nil (word_kind _) lineEnds_nil⟩
    | cons next names =>
      exact ⟨_, .more lineEnds_nil (word_kind _) lineEnds_nil (word_kind _) hs⟩

/-- A statement is spelled by some tokens, places aside. -/
def StmtSpellable (s : Stmt) : Prop :=
  ∃ read ts, read.bare = s.bare ∧ SpellsClause Separated (.stmt read) ts

/-- Statements are spelled by some tokens, places aside. -/
def BodySpellable (ss : List Stmt) : Prop :=
  ∃ read ts, bareStmts read = bareStmts ss ∧ SpellsClause Separated (.body read) ts

/-- Spellable statements can be put in braces. -/
theorem BodySpellable.block {ss : List Stmt} (h : BodySpellable ss) :
    ∃ read start ts, bareStmts read = bareStmts ss ∧
      SpellsClause Separated (.block read start) ts := by
  obtain ⟨read, ts, hb, hs⟩ := h
  have hbraces : SpellsClause Separated (.block read (word (.symbol .openBrace)).span)
      (word (.symbol .openBrace) :: ([] ++ (ts ++ [word (.symbol .closeBrace)]))) :=
    .braces rfl (by simp [Separators]) hs rfl
  exact ⟨read, _, _, hb, hbraces⟩

/-- A block that can be spelled as a statement can be spelled as a block. -/
theorem StmtSpellable.block {s : Stmt} (h : StmtSpellable s) (hs : s.isBlock) :
    ∃ read start ts, (Stmt.block read start).bare = s.bare ∧
      SpellsClause Separated (.block read start) ts := by
  obtain ⟨read, ts, hb, hr⟩ := h
  cases s with
  | block ss span =>
    -- No other form of statement is a block when its places are gone.
    cases hr with
    | block inner => exact ⟨_, _, _, hb, inner⟩
    | _ => cases hb
  | _ => cases hs

/-- A condition with a spellable block can be spelled, with `else` if that can be spelled. -/
theorem stmtSpellable_cond {e : Expr} {yes : Stmt} {no : Option Stmt} {span : Span}
    (he : Spellable e) (hblock : yes.isBlock) (hy : StmtSpellable yes)
    (hno : ∀ other ∈ no, other.isBranch ∧ StmtSpellable other) :
    StmtSpellable (.cond e yes no span) := by
  obtain ⟨c, cs, hbc, hc⟩ := he.condition
  obtain ⟨body, start, ys, hby, hys⟩ := hy.block hblock
  cases no with
  | none =>
    refine ⟨_, _, ?_, .cond (word_kind _) hc lineEnds_nil hys⟩
    simp only [Stmt.bare, hbc, ← hby]
  | some other =>
    obtain ⟨hbranch, read, ns, hbn, hn⟩ := hno other rfl
    have hbranch : read.isBranch := by
      rw [← read.isBranch_bare, hbn, other.isBranch_bare, hbranch]
    refine ⟨_, _, ?_, .condElse (word_kind _) hc lineEnds_nil hys lineEnds_nil (word_kind _)
      lineEnds_nil hbranch hn⟩
    simp only [Stmt.bare, hbc, hbn, ← hby]

mutual

/-- Every well-shaped statement can be spelled. -/
theorem stmtSpellable_of_wellShaped (s : Stmt) (h : s.WellShaped) : StmtSpellable s := by
  cases s with
  | expr e =>
    obtain ⟨read, ts, hb, hs⟩ := spellable_of_wellShaped e h
    refine ⟨.expr read, ts, ?_, .expr (hs _)⟩
    simp only [Stmt.bare, hb]
  | block body span =>
    obtain ⟨read, start, ts, hb, hs⟩ := (bodySpellable_of_wellShaped body h).block
    refine ⟨.block read start, ts, ?_, .block hs⟩
    simp only [Stmt.bare, hb]
  | cond e yes no span =>
    cases no with
    | none =>
      obtain ⟨he, hblock, hy⟩ := h
      exact stmtSpellable_cond (spellable_of_wellShaped e he) hblock
        (stmtSpellable_of_wellShaped yes hy) (by simp)
    | some other =>
      obtain ⟨he, hblock, hy, hbranch, hn⟩ := h
      refine stmtSpellable_cond (spellable_of_wellShaped e he) hblock
        (stmtSpellable_of_wellShaped yes hy) ?_
      rintro _ ⟨⟩
      exact ⟨hbranch, stmtSpellable_of_wellShaped other hn⟩
  | whileLoop e body span =>
    obtain ⟨he, hblock, hbody⟩ := h
    obtain ⟨c, cs, hbc, hc⟩ := (spellable_of_wellShaped e he).condition
    obtain ⟨read, start, bs, hb, hs⟩ := (stmtSpellable_of_wellShaped body hbody).block hblock
    refine ⟨_, _, ?_, .whileLoop (word_kind _) hc lineEnds_nil hs⟩
    simp only [Stmt.bare, hbc, ← hb]
  | forLoop binder e body span =>
    obtain ⟨he, hblock, hbody⟩ := h
    obtain ⟨c, cs, hbc, hc⟩ := (spellable_of_wellShaped e he).forClause binder
    obtain ⟨read, start, bs, hb, hs⟩ := (stmtSpellable_of_wellShaped body hbody).block hblock
    refine ⟨_, _, ?_, .forLoop (word_kind _) hc lineEnds_nil hs⟩
    simp only [Stmt.bare, hbc, ← hb]
  | function name params body span =>
    obtain ⟨read, start, bs, hb, hs⟩ := (bodySpellable_of_wellShaped body h).block
    obtain ⟨ps, hps⟩ := exists_spellsNames params
    refine ⟨_, _, ?_, .function (word_kind _) (word_kind (.name name)) (word_kind _) hps
      (word_kind _) lineEnds_nil hs⟩
    simp only [Stmt.bare, hb]
  | giveBack value span =>
    cases value with
    | none =>
      refine ⟨_, _, ?_, .giveBack (word_kind _)⟩
      simp only [Stmt.bare]
    | some e =>
      obtain ⟨read, ts, hb, hs⟩ := spellable_of_wellShaped e h
      refine ⟨_, _, ?_, .giveBackValue (word_kind _) (hs _)⟩
      simp only [Stmt.bare, hb]
  | importing library nickname span =>
    cases nickname with
    | none =>
      refine ⟨_, _, ?_, .importing (word_kind _) (word_kind (.name library))⟩
      simp only [Stmt.bare]
    | some name =>
      refine ⟨_, _, ?_, .importingAs (word_kind _) (word_kind (.name library)) (word_kind _)
        (word_kind (.name name))⟩
      simp only [Stmt.bare]

/-- All well-shaped statements can be spelled one after the other. -/
theorem bodySpellable_of_wellShaped (ss : List Stmt) (h : Program.WellShaped ss) :
    BodySpellable ss := by
  cases ss with
  | nil => exact ⟨[], [], rfl, .nil⟩
  | cons s ss =>
    obtain ⟨read, ts, hb, hs⟩ := stmtSpellable_of_wellShaped s h.1
    obtain ⟨reads, us, hbs, hss⟩ := bodySpellable_of_wellShaped ss h.2
    -- One line end divides the statements.
    have hcons :
        SpellsClause Separated (.body (read :: reads)) (ts ++ ([word .newline] ++ us)) := by
      refine .cons hs ?_ ?_ hss
      · simp [Separators, word, Token.isSeparator, Token.isNewline]
      · rintro _ ⟨⟩
        rfl
    refine ⟨read :: reads, _, ?_, hcons⟩
    simp only [bareStmts, hb, hbs]

end

end Grammar

/-- Every well-shaped program can be written down. -/
theorem Program.exists_renders {program : Program} (h : program.WellShaped) :
    ∃ ts, program.Renders ts := by
  obtain ⟨read, ts, hb, hs⟩ := bodySpellable_of_wellShaped program h
  exact ⟨ts, read, hb, [], ts, by simp [Separators], hs, rfl⟩

end QuantumScript
