import QuantumScript.Proofs.Grammar.Parts
import QuantumScript.Proofs.Parser.Join
import QuantumScript.Proofs.Parser.StmtSound
import QuantumScript.Proofs.Token.Tiling

/-!
# Regions nest as expressions do

The region of every expression in a program runs from the start of a token to the end of the same or
a later one. It contains the regions of the expressions directly in it, and these stand one after
the other without overlap (`parseSource_nests`).

All that is needed of the tokens is that they stand in order in the text. Parentheses belong to no
region, so a region may be shorter than the tokens that spell its expression: what spells an
expression only covers its region (`Span.Covers`).
-/

namespace QuantumScript

/-! ## Regions -/

namespace Span

/-- A region contains another one. -/
structure Contains (s t : Span) : Prop where
  /-- It starts no later. -/
  start_le : s.start ≤ t.start
  /-- It ends no earlier. -/
  le_stop : t.stop ≤ s.stop

/-- A region runs from the start of a token to the end of the same or a later one. -/
def Covers (s : Span) (ts : List Token) : Prop :=
  ∃ before first after, ts = before ++ first :: after ∧
    s.start = first.span.start ∧ s.line = first.span.line ∧ s.column = first.span.column ∧
    ∃ last ∈ first :: after, s.stop = last.span.stop

variable {s t u : Span} {ts us : List Token}

/-- A region contains itself. -/
theorem Contains.refl (s : Span) : s.Contains s :=
  ⟨Nat.le_refl _, Nat.le_refl _⟩

/-- The region through two contains what is between the start of the first and the end of the
second. -/
theorem through_contains (hstart : s.start ≤ u.start) (hstop : u.stop ≤ t.stop) :
    (s.through t).Contains u :=
  ⟨hstart, Nat.le_trans hstop (Nat.le_max_left _ _)⟩

end Span

/-- Tokens stand in order: each is written with at least one byte and ends before the later ones
start. -/
structure Token.InOrder (ts : List Token) : Prop where
  /-- A token has at least one byte. -/
  written : ∀ t ∈ ts, t.span.start < t.span.stop
  /-- It ends before later tokens start. -/
  ordered : ts.Pairwise fun t u => t.span.stop ≤ u.span.start

namespace Token.InOrder

variable {t : Token} {ts us : List Token}

/-- Some tokens in order, one behind the other, are in order. -/
theorem mono (h : InOrder ts) (hus : us <:+: ts) : InOrder us :=
  ⟨fun t ht => h.written t (hus.subset ht), h.ordered.sublist hus.sublist⟩

/-- Tokens in two stretches, the first before the second. -/
theorem append (h : InOrder (us ++ ts)) :
    InOrder us ∧ InOrder ts ∧ ∀ t ∈ us, ∀ u ∈ ts, t.span.stop ≤ u.span.start :=
  ⟨h.mono List.infix_append_left, h.mono List.infix_append_right,
    (List.pairwise_append.1 h.ordered).2.2⟩

/-- A token and tokens behind it. -/
theorem cons (h : InOrder (t :: ts)) :
    t.span.start < t.span.stop ∧ InOrder ts ∧ ∀ u ∈ ts, t.span.stop ≤ u.span.start :=
  ⟨h.written t List.mem_cons_self, h.mono (List.suffix_cons t ts).isInfix,
    (List.pairwise_cons.1 h.ordered).1⟩

end Token.InOrder

namespace Span.Covers

open Token

variable {s t : Span} {ts us : List Token} {n : Nat}

/-- The region of a token. -/
theorem token (t : Token) (ts : List Token) : t.span.Covers (t :: ts) :=
  ⟨[], t, ts, rfl, rfl, rfl, rfl, t, List.mem_cons_self, rfl⟩

/-- A region between some tokens is one between more. -/
theorem mono (h : s.Covers us) (hus : us <:+: ts) : s.Covers ts := by
  obtain ⟨before, first, after, rfl, hstart, hline, hcolumn, last, hlast, hstop⟩ := h
  obtain ⟨front, tail, rfl⟩ := hus
  refine ⟨front ++ before, first, after ++ tail, by simp, hstart, hline, hcolumn, last, ?_, hstop⟩
  exact List.mem_append_left tail hlast

/-- A region between tokens that end before a place ends before it. -/
theorem stop_le (h : s.Covers ts) (hn : ∀ t ∈ ts, t.span.stop ≤ n) : s.stop ≤ n := by
  obtain ⟨before, first, after, rfl, -, -, -, last, hlast, hstop⟩ := h
  rw [hstop]
  exact hn last (List.mem_append_right before hlast)

/-- A region between tokens that start after a place starts after it. -/
theorem le_start (h : s.Covers ts) (hn : ∀ t ∈ ts, n ≤ t.span.start) : n ≤ s.start := by
  obtain ⟨before, first, after, rfl, hstart, -⟩ := h
  rw [hstart]
  exact hn first (List.mem_append_right before List.mem_cons_self)

/-- Regions between tokens before and after each other. -/
theorem stop_le_start (hs : s.Covers us) (ht : t.Covers ts)
    (h : ∀ a ∈ us, ∀ b ∈ ts, a.span.stop ≤ b.span.start) : s.stop ≤ t.start :=
  ht.le_start fun b hb => hs.stop_le fun a ha => h a ha b hb

/-- A region between tokens in order has at least one byte. -/
theorem start_lt_stop (h : s.Covers ts) (ho : InOrder ts) : s.start < s.stop := by
  obtain ⟨before, first, after, rfl, hstart, -, -, last, hlast, hstop⟩ := h
  obtain ⟨hfirst, -, hafter⟩ := ho.append.2.1.cons
  rw [hstart, hstop]
  rcases List.mem_cons.1 hlast with rfl | hlast
  · exact hfirst
  · have hwritten := ho.append.2.1.written last (List.mem_cons_of_mem first hlast)
    have hordered := hafter last hlast
    omega

/-- The region through two between tokens before and after each other. -/
theorem through (hs : s.Covers us) (ht : t.Covers ts) (ho : InOrder (us ++ ts)) :
    (s.through t).Covers (us ++ ts) := by
  obtain ⟨hus, hts, hcross⟩ := ho.append
  have hsproper := hs.start_lt_stop hus
  have htproper := ht.start_lt_stop hts
  have hbefore := hs.stop_le_start ht hcross
  obtain ⟨before, first, after, rfl, hstart, hline, hcolumn, -⟩ := hs
  obtain ⟨before', first', after', rfl, -, -, -, last, hlast, hstop⟩ := ht
  refine ⟨before, first, after ++ (before' ++ first' :: after'), by simp, hstart, hline, hcolumn,
    last, ?_, ?_⟩
  · exact List.mem_cons_of_mem _ (List.mem_append_right _ (List.mem_append_right _ hlast))
  · show max t.stop s.stop = last.span.stop
    omega

end Span.Covers

/-- Tokens in order between an opening and a closing one. -/
structure Token.Enclosed (opening : Token) (ts : List Token) (closing : Token) : Prop where
  /-- The opening token has at least one byte. -/
  opens : opening.span.start < opening.span.stop
  /-- The closing token has at least one byte. -/
  closes : closing.span.start < closing.span.stop
  /-- It stands behind the opening one. -/
  apart : opening.span.stop ≤ closing.span.start
  /-- The tokens between them are in order. -/
  inner : InOrder ts
  /-- A region between these lies between the two. -/
  between : ∀ s : Span, s.Covers ts → opening.span.stop ≤ s.start ∧ s.stop ≤ closing.span.start

/-- Tokens in order of which the first and the last enclose the others. -/
theorem Token.InOrder.enclosed {opening closing : Token} {ts : List Token}
    (h : InOrder (opening :: (ts ++ [closing]))) : Enclosed opening ts closing := by
  obtain ⟨hopens, hrest, hopening⟩ := h.cons
  obtain ⟨hts, hlast, hclosing⟩ := hrest.append
  refine ⟨hopens, hlast.cons.1, ?_, hts, fun s hs => ⟨?_, ?_⟩⟩
  · exact hopening closing (List.mem_append_right ts List.mem_cons_self)
  · exact hs.le_start fun t ht => hopening t (List.mem_append_left _ ht)
  · exact hs.stop_le fun t ht => hclosing t ht closing List.mem_cons_self

/-! ## Expressions -/

/-- The expressions directly in an expression, in the order in which they stand in the source. -/
def Expr.children : Expr → List Expr
  | .binary _ left right _ | .logical _ left right _ => [left, right]
  | .unary _ operand _ => [operand]
  | .assign _ value _ => [value]
  | .call callee args _ => callee :: args
  | .methodCall object _ args _ => object :: args
  | .member object _ _ => [object]
  | .array elements _ => elements
  | .index object place _ => [object, place]
  | .number _ _ | .text _ _ | .bool _ _ | .null _ | .name _ _ => []

/-- Expressions stand one after the other without overlap. -/
def Apart (es : List Expr) : Prop :=
  es.Pairwise fun e next => e.span.stop ≤ next.span.start

/-- The region of an expression lies between some tokens, around those of the expressions directly
in it. -/
structure Expr.Nests (ts : List Token) (e : Expr) : Prop where
  /-- The region runs from the start of a token to the end of the same or a later one. -/
  covers : e.span.Covers ts
  /-- It has at least one byte. -/
  written : e.span.start < e.span.stop
  /-- It contains the regions of the expressions directly in it. -/
  around : ∀ child ∈ e.children, e.span.Contains child.span
  /-- These stand one after the other. -/
  apart : Apart e.children

/-- What nests between some tokens does so between more. -/
theorem Expr.Nests.mono {e : Expr} {ts us : List Token} (h : e.Nests us) (hus : us <:+: ts) :
    e.Nests ts :=
  ⟨h.covers.mono hus, h.written, h.around, h.apart⟩

/-- A literal or a name has the region of its token and nothing in it. -/
theorem Token.nests_of_atom? {t : Token} {e : Expr} (h : t.atom? = some e)
    (ht : t.span.start < t.span.stop) : e.Nests [t] := by
  have hspan : e.span = t.span ∧ e.children = [] := by
    unfold atom? at h
    split at h <;> cases h <;> exact ⟨rfl, rfl⟩
  obtain ⟨hspan, hchildren⟩ := hspan
  refine ⟨?_, ?_, ?_, ?_⟩
  · rw [hspan]
    exact .token t []
  · rwa [hspan]
  · simp [hchildren]
  · simp [Apart, hchildren]

/-- An expression whose region runs through two others nests if what is in it stands between them,
in order. -/
theorem Expr.nests_through {e : Expr} {s t : Span} {us vs : List Token}
    (hspan : e.span = s.through t) (hs : s.Covers us) (ht : t.Covers vs)
    (ho : Token.InOrder (us ++ vs))
    (hchildren : ∀ child ∈ e.children, s.start ≤ child.span.start ∧ child.span.stop ≤ t.stop)
    (hapart : Apart e.children) : e.Nests (us ++ vs) := by
  have hcovers : e.span.Covers (us ++ vs) := by
    rw [hspan]
    exact hs.through ht ho
  refine ⟨hcovers, hcovers.start_lt_stop ho, fun child hchild => ?_, hapart⟩
  rw [hspan]
  exact Span.through_contains (hchildren child hchild).1 (hchildren child hchild).2

/-- The first expression in a call lies in the region of what is called, and the others are the
arguments. -/
theorem Expr.Nests.children_called {callee : Expr} {ts : List Token} (h : callee.Nests ts)
    (args : List Expr) (span : Span) :
    ∃ receiver, (callee.called args span).children = receiver :: args ∧
      callee.span.Contains receiver.span := by
  cases callee with
  | member object name inner =>
    exact ⟨object, rfl, h.around object List.mem_cons_self⟩
  | _ => exact ⟨_, rfl, .refl _⟩

/-- The region of a call is that of the call. -/
theorem Expr.span_called (callee : Expr) (args : List Expr) (span : Span) :
    (callee.called args span).span = span := by
  cases callee <;> rfl

namespace Grammar

open Token

variable {ts us : List Token}

/-- The expressions of a phrase nest between some tokens, and stand one after the other. -/
def Phrase.Nests (ts : List Token) : Phrase → Prop
  | .one _ e => e.Nests ts
  | .many es => (∀ e ∈ es, e.span.Covers ts) ∧ Apart es

/-- What is spelled by tokens in order nests between them. -/
theorem Spells.nests {phrase : Phrase} (h : Spells phrase ts) (ho : InOrder ts) :
    phrase.Nests ts := by
  -- A region runs through the regions of the first and the last part; parts in between are spelled
  -- by tokens in between.
  induction h with
  | atom atom => exact nests_of_atom? atom (ho.written _ List.mem_cons_self)
  | @paren _ opening closing _ before ts after _ _ _ _ _ ih =>
    have hinfix : ts <:+: opening :: (before ++ (ts ++ (after ++ [closing]))) :=
      ⟨opening :: before, after ++ [closing], by simp⟩
    exact (ih (ho.mono hinfix)).mono hinfix
  | @array _ opening closing es ts _ _ _ ih =>
    have henclosed := ho.enclosed
    obtain ⟨hcovers, hapart⟩ := ih henclosed.inner
    have hclose : closing.span.Covers (ts ++ [closing]) :=
      (Span.Covers.token closing []).mono (List.suffix_append ts _).isInfix
    refine Expr.nests_through rfl (.token opening []) hclose ho (fun child hchild => ?_) hapart
    have hbetween := henclosed.between _ (hcovers child hchild)
    have hopens := henclosed.opens
    have hcloses := henclosed.closes
    omega
  | @call _ opening closing callee args cs ts _ _ _ _ _ ihc iha =>
    obtain ⟨hcs, hrest, hcallee⟩ := ho.append
    have henclosed := hrest.enclosed
    have hnests : callee.Nests cs := ihc hcs
    obtain ⟨hcovers, hapart⟩ := iha henclosed.inner
    have hclose : closing.span.Covers (opening :: (ts ++ [closing])) :=
      (Span.Covers.token closing []).mono (List.suffix_append (opening :: ts) _).isInfix
    obtain ⟨receiver, hchildren, hstart, hstop⟩ :=
      hnests.children_called args (callee.span.through closing.span)
    have hcalled : callee.span.stop ≤ opening.span.start :=
      hnests.covers.stop_le fun t ht => hcallee t ht opening List.mem_cons_self
    have hwritten := hnests.written
    have hopens := henclosed.opens
    have hcloses := henclosed.closes
    have hopened := henclosed.apart
    refine Expr.nests_through (Expr.span_called _ _ _) hnests.covers hclose ho ?_ ?_
    · rw [hchildren]
      refine List.forall_mem_cons.2 ⟨by omega, fun arg harg => ?_⟩
      have hbetween := henclosed.between _ (hcovers arg harg)
      omega
    · rw [hchildren]
      refine List.pairwise_cons.2 ⟨fun arg harg => ?_, hapart⟩
      have hbetween := henclosed.between _ (hcovers arg harg)
      omega
  | @member _ dot label object name os _ _ _ _ ih =>
    obtain ⟨hos, hrest, howner⟩ := ho.append
    have hnests : object.Nests os := ih hos
    have hlabel : label.span.Covers [dot, label] :=
      (Span.Covers.token label []).mono (List.suffix_append [dot] _).isInfix
    have hbefore : object.span.stop ≤ label.span.start :=
      hnests.covers.stop_le_start (.token label []) fun a ha b hb =>
        howner a ha b (List.mem_cons_of_mem dot hb)
    have hwritten := hrest.written label (List.mem_cons_of_mem dot List.mem_cons_self)
    refine Expr.nests_through rfl hnests.covers hlabel ho ?_ (List.pairwise_singleton _ _)
    refine List.forall_mem_cons.2 ⟨⟨Nat.le_refl _, by omega⟩, nofun⟩
  | @index _ opening closing object position os before ts after _ _ _ _ _ _ _ iho ihp =>
    obtain ⟨hos, hrest, howner⟩ := ho.append
    have henclosed : Enclosed opening (before ++ (ts ++ after)) closing :=
      Token.InOrder.enclosed (by simpa using hrest)
    have hts : ts <:+: before ++ (ts ++ after) := ⟨before, after, by simp⟩
    have hnests : object.Nests os := iho hos
    have hplace : position.Nests ts := ihp (henclosed.inner.mono hts)
    have hclose : closing.span.Covers (opening :: (before ++ (ts ++ (after ++ [closing])))) :=
      (Span.Covers.token closing []).mono ⟨opening :: (before ++ (ts ++ after)), [], by simp⟩
    have howned : object.span.stop ≤ opening.span.start :=
      hnests.covers.stop_le fun t ht => howner t ht opening List.mem_cons_self
    have hbetween := henclosed.between _ (hplace.covers.mono hts)
    have hwritten := hnests.written
    have hopens := henclosed.opens
    have hcloses := henclosed.closes
    have hopened := henclosed.apart
    refine Expr.nests_through rfl hnests.covers hclose ho ?_ (List.pairwise_pair.2 (by omega))
    exact List.forall_mem_cons.2 ⟨by omega, List.forall_mem_cons.2 ⟨by omega, nofun⟩⟩
  | @unary _ sign op operand ts _ _ _ ih =>
    obtain ⟨hsign, hts, hbefore⟩ := ho.cons
    have hnests : operand.Nests ts := ih hts
    have hafter : sign.span.stop ≤ operand.span.start := hnests.covers.le_start hbefore
    refine Expr.nests_through rfl (.token sign []) hnests.covers ho ?_ (List.pairwise_singleton _ _)
    exact List.forall_mem_cons.2 ⟨⟨by omega, Nat.le_refl _⟩, nofun⟩
  | @joined _ sign joint left right ls rs _ _ _ _ ihl ihr =>
    obtain ⟨hls, hrest, hcross⟩ := ho.append
    have hleft : left.Nests ls := ihl hls
    have hright : right.Nests rs := ihr hrest.cons.2.1
    have hbefore : left.span.stop ≤ right.span.start :=
      hleft.covers.stop_le_start hright.covers fun a ha b hb =>
        hcross a ha b (List.mem_cons_of_mem sign hb)
    have hchildren : (joint.join left right).children = [left, right] := by cases joint <;> rfl
    have hspan : (joint.join left right).span = left.span.through right.span := by
      cases joint <;> rfl
    have hlwritten := hleft.written
    have hrwritten := hright.written
    refine Expr.nests_through hspan hleft.covers
      (hright.covers.mono (List.suffix_cons sign rs).isInfix) ho ?_ ?_
    · rw [hchildren]
      refine List.forall_mem_cons.2 ⟨by omega, List.forall_mem_cons.2 ⟨by omega, nofun⟩⟩
    · rw [hchildren]
      exact List.pairwise_pair.2 hbefore
  | @assign sign name span value ns ts _ _ _ iht ihs =>
    obtain ⟨hns, hrest, hcross⟩ := ho.append
    have htarget : (Expr.name name span).Nests ns := iht hns
    have hvalue : value.Nests ts := ihs hrest.cons.2.1
    have hbefore : span.stop ≤ value.span.start :=
      htarget.covers.stop_le_start hvalue.covers fun a ha b hb =>
        hcross a ha b (List.mem_cons_of_mem sign hb)
    have hwritten : span.start < span.stop := htarget.written
    refine Expr.nests_through rfl htarget.covers
      (hvalue.covers.mono (List.suffix_cons sign ts).isInfix) ho ?_ (List.pairwise_singleton _ _)
    exact List.forall_mem_cons.2 ⟨⟨by show span.start ≤ _; omega, Nat.le_refl _⟩, nofun⟩
  | none => exact ⟨nofun, .nil⟩
  | @last e before ts after _ _ _ ih =>
    have hinfix : ts <:+: before ++ (ts ++ after) := ⟨before, after, by simp⟩
    have hnests : e.Nests ts := ih (ho.mono hinfix)
    exact ⟨List.forall_mem_cons.2 ⟨hnests.covers.mono hinfix, nofun⟩, List.pairwise_singleton _ _⟩
  | @more comma e next es before ts after others _ _ _ _ _ ihe ihr =>
    have hsplit : InOrder ((before ++ ts) ++ (after ++ comma :: others)) := by simpa using ho
    obtain ⟨hfront, hback, hcross⟩ := hsplit.append
    have hothers : others <:+: after ++ comma :: others := ⟨after ++ [comma], [], by simp⟩
    have hnests : e.Nests (before ++ ts) :=
      Expr.Nests.mono (ihe hfront.append.2.1) List.infix_append_right
    obtain ⟨hcovers, hapart⟩ := ihr (hback.mono hothers)
    have hlater : ∀ f ∈ next :: es, f.span.Covers (after ++ comma :: others) :=
      fun f hf => (hcovers f hf).mono hothers
    refine ⟨List.forall_mem_cons.2 ⟨?_, fun f hf => ?_⟩, List.pairwise_cons.2 ⟨?_, hapart⟩⟩
    · exact hnests.covers.mono ⟨[], after ++ comma :: others, by simp⟩
    · exact (hlater f hf).mono ⟨before ++ ts, [], by simp⟩
    · exact fun f hf => hnests.covers.stop_le_start (hlater f hf) hcross

end Grammar

/-- In a program that is read from a source text, the region of every expression runs from the start
of a token to the end of the same or a later one, with the line and column of the first, and is not
empty. It contains the regions of the expressions directly in it, which stand one after the other
without overlap. -/
theorem parseSource_nests {source : String} {program : Program}
    (h : parseSource source = .ok program) :
    ∃ tokens, tokenize source = .ok tokens ∧ ∀ e ∈ partsAmong program, e.Nests tokens.items := by
  obtain ⟨tokens, htokens, hparse⟩ := parseSource_eq_ok.1 h
  obtain ⟨-, -, htiles⟩ := tokenize_tiles htokens
  have horder : Token.InOrder tokens.items := ⟨htiles.written, htiles.ordered⟩
  refine ⟨tokens, htokens, fun e he => ?_⟩
  obtain ⟨lead, rest, -, hbody, hitems⟩ := Parser.parse_eq_ok.1 hparse
  obtain ⟨level, us, hus, hs⟩ := hbody.spelledIn he
  have hinfix : us <:+: tokens.items := by
    rw [hitems]
    exact hus.trans (List.suffix_append lead rest).isInfix
  exact Expr.Nests.mono (hs.nests (horder.mono hinfix)) hinfix

/-- A text with a member in parentheses that is called, in the body of a function. -/
def methodText : String := "function f(a) \x7b return (a.b)(1) \x7d"

/-- The call in it: the member that is called has left only its owner. -/
def methodExpr : Expr :=
  .methodCall (.name "a" ⟨24, 25, 1, 25⟩) "b" [.number 1 ⟨29, 30, 1, 30⟩] ⟨24, 31, 1, 25⟩

/-- The region of the call starts behind the parenthesis, at its owner, and contains the owner and
the argument. -/
theorem parseSource_nests_method :
    parseSource methodText =
        .ok [.function "f" ["a"] [.giveBack (some methodExpr) ⟨16, 22, 1, 17⟩] ⟨0, 8, 1, 1⟩] ∧
      ∃ tokens, tokenize methodText = .ok tokens ∧ methodExpr.Nests tokens.items := by
  have htokens : tokenize methodText =
      .ok ⟨[⟨.keyword .function, ⟨0, 8, 1, 1⟩, "function"⟩, ⟨.name "f", ⟨9, 10, 1, 10⟩, "f"⟩,
        ⟨.symbol .openParen, ⟨10, 11, 1, 11⟩, "("⟩, ⟨.name "a", ⟨11, 12, 1, 12⟩, "a"⟩,
        ⟨.symbol .closeParen, ⟨12, 13, 1, 13⟩, ")"⟩, ⟨.symbol .openBrace, ⟨14, 15, 1, 15⟩, "\x7b"⟩,
        ⟨.keyword .giveBack, ⟨16, 22, 1, 17⟩, "return"⟩,
        ⟨.symbol .openParen, ⟨23, 24, 1, 24⟩, "("⟩, ⟨.name "a", ⟨24, 25, 1, 25⟩, "a"⟩,
        ⟨.symbol .dot, ⟨25, 26, 1, 26⟩, "."⟩, ⟨.name "b", ⟨26, 27, 1, 27⟩, "b"⟩,
        ⟨.symbol .closeParen, ⟨27, 28, 1, 28⟩, ")"⟩, ⟨.symbol .openParen, ⟨28, 29, 1, 29⟩, "("⟩,
        ⟨.number 1, ⟨29, 30, 1, 30⟩, "1"⟩, ⟨.symbol .closeParen, ⟨30, 31, 1, 31⟩, ")"⟩,
        ⟨.symbol .closeBrace, ⟨32, 33, 1, 33⟩, "\x7d"⟩], ⟨33, 33, 1, 34⟩⟩ := by
    with_unfolding_all rfl
  have hparse : parseSource methodText =
      .ok [.function "f" ["a"] [.giveBack (some methodExpr) ⟨16, 22, 1, 17⟩] ⟨0, 8, 1, 1⟩] := by
    refine parseSource_eq_ok.2 ⟨_, htokens, ?_⟩
    cbv
  obtain ⟨tokens, htokens', hnests⟩ := parseSource_nests hparse
  exact ⟨hparse, tokens, htokens', hnests methodExpr
    (by simp [partsAmong, Stmt.parts, methodExpr, Expr.mem_parts_self])⟩

end QuantumScript
