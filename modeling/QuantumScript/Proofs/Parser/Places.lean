import QuantumScript.Proofs.Parser.Left
import QuantumScript.Proofs.Parser.StmtSound

/-!
# Where the parts of a program stand

What holds of the regions of some tokens, and of the region through two regions it holds of, holds
of every region in a program that is read from these tokens (`Program.everywhere_of_parse`). So
every part of a program stands in the source text that it is read from, and a text that is not read
as a program is reported at a place in it (`parseSource_located`).
-/

namespace QuantumScript

variable {P : Span → Prop}

mutual

/-- Something holds of all regions in an expression. -/
def Expr.Everywhere (P : Span → Prop) : Expr → Prop
  | .number _ span | .text _ span | .bool _ span | .null span | .name _ span => P span
  | .binary _ left right span | .logical _ left right span =>
    left.Everywhere P ∧ right.Everywhere P ∧ P span
  | .unary _ operand span => operand.Everywhere P ∧ P span
  | .assign _ value span => value.Everywhere P ∧ P span
  | .call callee args span => callee.Everywhere P ∧ EverywhereIn P args ∧ P span
  | .methodCall object _ args span => object.Everywhere P ∧ EverywhereIn P args ∧ P span
  | .member object _ span => object.Everywhere P ∧ P span
  | .array elements span => EverywhereIn P elements ∧ P span
  | .index object place span => object.Everywhere P ∧ place.Everywhere P ∧ P span

/-- Something holds of all regions in some expressions. -/
def EverywhereIn (P : Span → Prop) : List Expr → Prop
  | [] => True
  | e :: es => e.Everywhere P ∧ EverywhereIn P es

end

mutual

/-- Something holds of all regions in a statement. -/
def Stmt.Everywhere (P : Span → Prop) : Stmt → Prop
  | .expr value => value.Everywhere P
  | .block body span => EverywhereAmong P body ∧ P span
  | .cond condition yes none span => condition.Everywhere P ∧ yes.Everywhere P ∧ P span
  | .cond condition yes (some no) span =>
    condition.Everywhere P ∧ yes.Everywhere P ∧ no.Everywhere P ∧ P span
  | .whileLoop condition body span => condition.Everywhere P ∧ body.Everywhere P ∧ P span
  | .forLoop _ items body span => items.Everywhere P ∧ body.Everywhere P ∧ P span
  | .function _ _ body span => EverywhereAmong P body ∧ P span
  | .giveBack none span => P span
  | .giveBack (some value) span => value.Everywhere P ∧ P span
  | .importing _ _ span => P span

/-- Something holds of all regions in some statements. -/
def EverywhereAmong (P : Span → Prop) : List Stmt → Prop
  | [] => True
  | s :: ss => s.Everywhere P ∧ EverywhereAmong P ss

end

/-- What holds everywhere in an expression holds of its region. -/
theorem Expr.Everywhere.span {e : Expr} (h : e.Everywhere P) : P e.span := by
  cases e <;> simp_all [Expr.Everywhere, Expr.span]

/-- What holds everywhere in a statement holds of its region. -/
theorem Stmt.Everywhere.span {s : Stmt} (h : s.Everywhere P) : P s.span := by
  cases s with
  | expr value => exact Expr.Everywhere.span h
  | cond condition yes no span => cases no <;> simp_all [Stmt.Everywhere, Stmt.span]
  | giveBack value span => cases value <;> simp_all [Stmt.Everywhere, Stmt.span]
  | _ => simp_all [Stmt.Everywhere, Stmt.span]

/-- Something that holds of two regions holds of the region through both. -/
def Span.Joins (P : Span → Prop) : Prop :=
  ∀ s t, P s → P t → P (s.through t)

/-- The region through two regions of a text lies in it. -/
theorem Span.joins_within (size : Nat) : Joins (Within size) := by
  intro s t hs ht
  exact ⟨Nat.le_trans hs.ordered (Nat.le_max_right _ _), Nat.max_le.2 ⟨ht.inside, hs.inside⟩,
    hs.lined⟩

/-- What holds everywhere in two expressions holds everywhere in their joint. -/
theorem Joint.everywhere_join (hP : Span.Joins P) (joint : Joint) {left right : Expr}
    (hl : left.Everywhere P) (hr : right.Everywhere P) : (joint.join left right).Everywhere P := by
  cases joint <;> exact ⟨hl, hr, hP _ _ hl.span hr.span⟩

/-- What holds everywhere in a callee and its arguments holds everywhere in the call. -/
theorem Expr.everywhere_called {callee : Expr} {args : List Expr} {span : Span}
    (hc : callee.Everywhere P) (ha : EverywhereIn P args) (hs : P span) :
    (callee.called args span).Everywhere P := by
  cases callee with
  | member object name inner => exact ⟨hc.1, ha, hs⟩
  | _ => exact ⟨hc, ha, hs⟩

namespace Grammar

variable {ts : List Token}

/-- Something holds everywhere in a phrase. -/
def Phrase.Everywhere (P : Span → Prop) : Phrase → Prop
  | .one _ e => e.Everywhere P
  | .many es => EverywhereIn P es

/-- Something holds everywhere in a clause. -/
def Clause.Everywhere (P : Span → Prop) : Clause → Prop
  | .stmt s => s.Everywhere P
  | .block ss start => EverywhereAmong P ss ∧ P start
  | .body ss => EverywhereAmong P ss

/-- What holds of the tokens that spell a phrase holds everywhere in it. -/
theorem Spells.everywhere (hP : Span.Joins P) {phrase : Phrase} (h : Spells phrase ts)
    (ht : ∀ t ∈ ts, P t.span) : phrase.Everywhere P := by
  -- Every region of the tree is that of a token, or runs through the regions of two parts.
  induction h with
  | @atom _ t _ atom =>
    have hspan : P t.span := ht t (List.mem_singleton_self t)
    unfold Token.atom? at atom
    split at atom <;> cases atom <;> exact hspan
  | paren _ _ _ _ _ ih =>
    simp only [List.forall_mem_cons, List.forall_mem_append] at ht
    exact ih ht.2.2.1
  | array _ _ _ ih =>
    simp only [List.forall_mem_cons, List.forall_mem_append] at ht
    exact ⟨ih ht.2.1, hP _ _ ht.1 ht.2.2.1⟩
  | call _ _ _ _ _ ihc iha =>
    simp only [List.forall_mem_cons, List.forall_mem_append] at ht
    have hcallee := ihc ht.1
    exact Expr.everywhere_called hcallee (iha ht.2.2.1) (hP _ _ hcallee.span ht.2.2.2.1)
  | member _ _ _ _ ih =>
    simp only [List.forall_mem_cons, List.forall_mem_append] at ht
    have howner := ih ht.1
    exact ⟨howner, hP _ _ howner.span ht.2.2.1⟩
  | index _ _ _ _ _ _ _ iho ihp =>
    simp only [List.forall_mem_cons, List.forall_mem_append] at ht
    have howner := iho ht.1
    exact ⟨howner, ihp ht.2.2.2.1, hP _ _ howner.span ht.2.2.2.2.2.1⟩
  | unary _ _ _ ih =>
    simp only [List.forall_mem_cons] at ht
    have hoperand := ih ht.2
    exact ⟨hoperand, hP _ _ ht.1 hoperand.span⟩
  | @joined _ _ joint _ _ _ _ _ _ _ _ ihl ihr =>
    simp only [List.forall_mem_cons, List.forall_mem_append] at ht
    exact joint.everywhere_join hP (ihl ht.1) (ihr ht.2.2)
  | assign _ _ _ iht ihs =>
    simp only [List.forall_mem_cons, List.forall_mem_append] at ht
    have hvalue := ihs ht.2.2
    exact ⟨hvalue, hP _ _ (iht ht.1) hvalue.span⟩
  | none => trivial
  | last _ _ _ ih =>
    simp only [List.forall_mem_append] at ht
    exact ⟨ih ht.2.1, trivial⟩
  | more _ _ _ _ _ ihe ihr =>
    simp only [List.forall_mem_cons, List.forall_mem_append] at ht
    exact ⟨ihe ht.2.1, ihr ht.2.2.2.2⟩

/-- What holds of the tokens that spell a clause holds everywhere in it. -/
theorem SpellsClause.everywhere (hP : Span.Joins P) {apart : Stmt → List Token → Prop}
    {clause : Clause} (h : SpellsClause apart clause ts) (ht : ∀ t ∈ ts, P t.span) :
    clause.Everywhere P := by
  induction h with
  | expr inner => exact inner.everywhere hP ht
  | block _ ih => exact ih ht
  | cond _ test _ _ ih =>
    obtain ⟨_, inner, _⟩ := test
    simp only [List.forall_mem_cons, List.forall_mem_append] at ht
    exact ⟨inner.everywhere hP ht.2.1.2.1, ih ht.2.2.2, ht.1⟩
  | condElse _ test _ _ _ _ _ _ _ ihf ihs =>
    obtain ⟨_, inner, _⟩ := test
    simp only [List.forall_mem_cons, List.forall_mem_append] at ht
    exact ⟨inner.everywhere hP ht.2.1.2.1, ihf ht.2.2.2.1, ihs ht.2.2.2.2.2.2.2, ht.1⟩
  | whileLoop _ test _ _ ih =>
    obtain ⟨_, inner, _⟩ := test
    simp only [List.forall_mem_cons, List.forall_mem_append] at ht
    exact ⟨inner.everywhere hP ht.2.1.2.1, ih ht.2.2.2, ht.1⟩
  | forLoop _ clause _ _ ih =>
    obtain ⟨_, _, _, inner, _⟩ := clause
    simp only [List.forall_mem_cons, List.forall_mem_append] at ht
    exact ⟨inner.everywhere hP ht.2.1.2.2.2.1, ih ht.2.2.2, ht.1⟩
  | function _ _ _ _ _ _ _ ih =>
    simp only [List.forall_mem_cons, List.forall_mem_append] at ht
    exact ⟨(ih ht.2.2.2.2.2.2).1, ht.1⟩
  | giveBack => exact ht _ (List.mem_singleton_self _)
  | giveBackValue _ inner =>
    simp only [List.forall_mem_cons] at ht
    exact ⟨inner.everywhere hP ht.2, ht.1⟩
  | importing => exact ht _ (List.mem_cons_self ..)
  | importingAs => exact ht _ (List.mem_cons_self ..)
  | braces _ _ _ _ ih =>
    simp only [List.forall_mem_cons, List.forall_mem_append] at ht
    exact ⟨ih ht.2.2.1, ht.1⟩
  | nil => trivial
  | cons _ _ _ _ ihf iho =>
    simp only [List.forall_mem_append] at ht
    exact ⟨ihf ht.1, iho ht.2.2⟩

end Grammar

/-- What holds of the tokens that a program is read from holds everywhere in it. -/
theorem Program.everywhere_of_parse (hP : Span.Joins P) {tokens : Tokens} {program : Program}
    (ht : tokens.Located P) (h : parse tokens = .ok program) : EverywhereAmong P program := by
  obtain ⟨lead, rest, -, hbody, hitems⟩ := Parser.parse_eq_ok.1 h
  refine hbody.everywhere hP fun t hmem => ht.1 t ?_
  rw [hitems]
  exact List.mem_append_right lead hmem

/-- Every region of what is read from a source text, a fault or a program, lies in it. -/
theorem parseSource_located (source : String) :
    (∀ fault, parseSource source = .error fault →
      fault.Located (Span.Within source.utf8ByteSize)) ∧
      ∀ program, parseSource source = .ok program →
        EverywhereAmong (Span.Within source.utf8ByteSize) program := by
  obtain ⟨hfault, htokens⟩ := tokenize_located source
  unfold parseSource
  cases ht : tokenize source with
  | error fault =>
    refine ⟨?_, nofun⟩
    rintro _ ⟨⟩
    exact hfault fault ht
  | ok tokens =>
    exact ⟨fun fault h => parse_located (htokens tokens ht) h,
      fun program h => Program.everywhere_of_parse (Span.joins_within _) (htokens tokens ht) h⟩

end QuantumScript
