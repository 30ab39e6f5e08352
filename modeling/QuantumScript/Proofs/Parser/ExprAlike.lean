import QuantumScript.Program.Parser.Expr
import QuantumScript.Proofs.Parser.Alike
import QuantumScript.Proofs.Program.Bare

/-!
# Expressions are read from kinds alone

The readers of expressions look at the kinds of tokens and at nothing else: from tokens of the same
kinds they read expressions that differ in places only, or get stuck at the same token for the same
reason (`exprAlike`).

The proof is an induction on the number of tokens. All readers are taken together in `ExprAlike`;
those that first skip line ends may start from as many tokens as before, and follow from the others
(`enclosed_alike`, `items_alike`).
-/

namespace QuantumScript

/-- Two expressions differ in places only. -/
def Expr.Same (e f : Expr) : Prop :=
  e.bare = f.bare

/-- Expressions one by one differ in places only. -/
def SameExprs (es fs : List Expr) : Prop :=
  bareExprs es = bareExprs fs

/-- Two calls of expressions that differ in places only do so too. -/
theorem Expr.Same.called {e f : Expr} {args args' : List Expr} (h : e.Same f)
    (ha : SameExprs args args') (span span' : Span) :
    (e.called args span).Same (f.called args' span') := by
  unfold Same SameExprs at *
  rw [bare_called, bare_called, h, ha]

/-- Of two expressions that differ in places only, both are the same name or none is a name. -/
theorem Expr.Same.name_or {e f : Expr} (h : e.Same f) :
    (∃ name span span', e = .name name span ∧ f = .name name span') ∨
      (∀ name span, e ≠ .name name span) ∧ ∀ name span, f ≠ .name name span := by
  unfold Same at h
  cases e with
  | name name span =>
    cases f with
    | name other span' =>
      cases h
      exact .inl ⟨name, span, span', rfl, rfl⟩
    | _ => cases h
  | _ =>
    refine .inr ⟨nofun, ?_⟩
    rintro name span rfl
    cases h

namespace Parser

open Token Reading

variable {ts us : List Token}

/-- What the readers of expressions make of two lists of tokens is alike. -/
structure ExprAlike (ts us : List Token) : Prop where
  /-- Expressions are read alike. -/
  expression : Alike Expr.Same (Parser.expression ts) (Parser.expression us)
  /-- What is assigned is read alike. -/
  assignment : ∀ e f, e.Same f →
    Alike Expr.Same (Parser.assignment e ts) (Parser.assignment f us)
  /-- Operands of rungs are read alike. -/
  chain : ∀ rungs, Alike Expr.Same (Parser.chain rungs ts) (Parser.chain rungs us)
  /-- What follows operands is read alike. -/
  chainRest : ∀ rung rungs e f, e.Same f →
    Alike Expr.Same (Parser.chainRest rung rungs e ts) (Parser.chainRest rung rungs f us)
  /-- Powers are read alike. -/
  power : Alike Expr.Same (Parser.power ts) (Parser.power us)
  /-- Exponents are read alike. -/
  exponent : ∀ e f, e.Same f → Alike Expr.Same (Parser.exponent e ts) (Parser.exponent f us)
  /-- Unary operators are read alike. -/
  unary : Alike Expr.Same (Parser.unary ts) (Parser.unary us)
  /-- Suffixes are read alike. -/
  suffixes : ∀ e f, e.Same f → Alike Expr.Same (Parser.suffixes e ts) (Parser.suffixes f us)
  /-- What follows an item of a list is read alike. -/
  moreItems : ∀ close want e f, e.Same f →
    Alike (fun x y => SameExprs x.1 y.1) (Parser.moreItems close want e ts)
      (Parser.moreItems close want f us)
  /-- Primary expressions are read alike. -/
  primary : Alike Expr.Same (Parser.primary ts) (Parser.primary us)

/-- The readers of expressions make alike things of fewer tokens than so many. -/
def ExprAlikeBelow (count : Nat) : Prop :=
  ∀ ts us : List Token, ts.length < count → SameKinds ts us → ExprAlike ts us

/-! ## Brackets -/

/-- Expressions in brackets are read alike. -/
theorem enclosed_alike (ih : ExprAlikeBelow (ts.length + 1)) (h : SameKinds ts us)
    (close : Symbol) (want : Expectation) :
    Alike (fun x y => x.1.Same y.1) (enclosed close want ts) (enclosed close want us) := by
  have hle := length_skipNewlines_le ts
  rw [enclosed, enclosed]
  refine Alike.widen ?_ _ _
  refine (ih _ _ (by omega) h.skipNewlines).expression.andThen fun e f rest rest' _ _ he hs => ?_
  refine Alike.widen ?_ _ _
  exact (alike_takeSymbol close want hs.skipNewlines).map fun _ _ _ => he

/-- Expressions divided by commas are read alike, at least one. -/
theorem someItems_alike (ih : ExprAlikeBelow (ts.length + 1)) (h : SameKinds ts us)
    (close : Symbol) (want : Expectation) :
    Alike (fun x y => SameExprs x.1 y.1) (someItems close want ts) (someItems close want us) := by
  have hle := length_skipNewlines_le ts
  rw [someItems, someItems]
  refine Alike.widen ?_ _ _
  refine (ih _ _ (by omega) h.skipNewlines).expression.andThen fun e f rest rest' hlt _ he hs => ?_
  have hle' := length_skipNewlines_le rest
  refine Alike.widen ?_ _ _
  exact (ih _ _ (by omega) hs.skipNewlines).moreItems close want e f he

/-- Expressions divided by commas are read alike. -/
theorem items_alike (ih : ExprAlikeBelow (ts.length + 1)) (h : SameKinds ts us)
    (close : Symbol) (want : Expectation) :
    Alike (fun x y => SameExprs x.1 y.1) (items close want ts) (items close want us) := by
  rw [items, items, h.nextIs fun _ _ hk => isSymbol_congr hk close]
  split
  · refine Alike.widen ?_ _ _
    exact (alike_takeSymbol close want h.skipNewlines).map fun _ _ _ => rfl
  · exact someItems_alike ih h close want

/-! ## From the tightest level to the loosest -/

/-- Primary expressions are read alike. -/
theorem primary_alike (ih : ExprAlikeBelow ts.length) (h : SameKinds ts us) :
    Alike Expr.Same (primary ts) (primary us) := by
  cases ts with
  | nil =>
    rw [h.eq_nil, primary]
    exact .error .nil
  | cons t ts =>
    obtain ⟨u, us, rfl, hk, hs⟩ := h.exists_cons
    rw [primary.eq_def, primary.eq_def (u :: us)]
    dsimp only
    rw [← hk]
    -- Both readers split on the same kind; only the two forms with brackets read any further.
    split
    case h_7 =>
      exact (enclosed_alike ih hs _ _).map (fun _ _ he => he) |>.behind
    case h_8 =>
      refine Alike.behind ((items_alike ih hs _ _).map fun x y he => ?_)
      unfold Expr.Same
      rw [Expr.bare, Expr.bare, he]
    case h_9 => exact .error (.cons hk hs)
    all_goals exact alike_token rfl hs

/-- Suffixes are read alike. -/
theorem suffixes_alike (ih : ExprAlikeBelow ts.length) (h : SameKinds ts us) (e f : Expr)
    (he : e.Same f) : Alike Expr.Same (suffixes e ts) (suffixes f us) := by
  cases ts with
  | nil =>
    rw [h.eq_nil, suffixes, suffixes]
    exact alike_nothing he .nil
  | cons t ts =>
    obtain ⟨u, us, rfl, hk, hs⟩ := h.exists_cons
    rw [suffixes.eq_def, suffixes.eq_def f (u :: us)]
    dsimp only
    rw [← hk]
    -- Behind each suffix fewer tokens are left, and what they are put to differs in places only.
    split
    · refine Alike.looseBehind ((items_alike ih hs _ _).andMaybe
        fun x y rest rest' hlt _ hx hr => ?_)
      exact (ih rest rest' (Nat.lt_succ_of_lt hlt) hr).suffixes _ _ (he.called hx _ _)
    · refine Alike.looseBehind ((alike_takeName _ hs).andMaybe
        fun x y rest rest' hlt _ hx hr => ?_)
      refine (ih rest rest' (Nat.lt_succ_of_lt hlt) hr).suffixes _ _ ?_
      unfold Expr.Same at *
      rw [Expr.bare, Expr.bare, he, hx]
    · refine Alike.looseBehind ((enclosed_alike ih hs _ _).andMaybe
        fun x y rest rest' hlt _ hx hr => ?_)
      refine (ih rest rest' (Nat.lt_succ_of_lt hlt) hr).suffixes _ _ ?_
      unfold Expr.Same at *
      rw [Expr.bare, Expr.bare, he, hx]
    · exact alike_nothing he (.cons hk hs)

/-- Unary operators are read alike. -/
theorem unary_alike (ih : ExprAlikeBelow ts.length) (h : SameKinds ts us) :
    Alike Expr.Same (unary ts) (unary us) := by
  cases ts with
  | nil =>
    rw [h.eq_nil, unary]
    exact .error .nil
  | cons t ts =>
    obtain ⟨u, us, rfl, hk, hs⟩ := h.exists_cons
    rw [unary.eq_def, unary.eq_def (u :: us)]
    dsimp only
    rw [← hk]
    split
    · refine Alike.behind ((ih ts us (Nat.lt_succ_self _) hs).unary.map fun x y hx => ?_)
      unfold Expr.Same at *
      rw [Expr.bare, Expr.bare, hx]
    · refine (primary_alike ih h).andMaybe fun x y rest rest' hlt _ hx hr => ?_
      exact (ih rest rest' hlt hr).suffixes x y hx

/-- Exponents are read alike. -/
theorem exponent_alike (ih : ExprAlikeBelow ts.length) (h : SameKinds ts us) (e f : Expr)
    (he : e.Same f) : Alike Expr.Same (exponent e ts) (exponent f us) := by
  cases ts with
  | nil =>
    rw [h.eq_nil, exponent, exponent]
    exact alike_nothing he .nil
  | cons t ts =>
    obtain ⟨u, us, rfl, hk, hs⟩ := h.exists_cons
    rw [exponent, exponent, isSymbol_congr hk]
    split
    · refine Alike.looseBehind ((ih ts us (Nat.lt_succ_self _) hs).power.map fun x y hx => ?_)
      exact Joint.bare_join _ he hx
    · exact alike_nothing he (.cons hk hs)

/-- Powers are read alike. -/
theorem power_alike (ih : ExprAlikeBelow ts.length) (h : SameKinds ts us) :
    Alike Expr.Same (power ts) (power us) := by
  rw [power, power]
  refine (unary_alike ih h).andMaybe fun x y rest rest' hlt _ hx hr => ?_
  exact (ih rest rest' hlt hr).exponent x y hx

/-- What follows operands is read alike. -/
theorem chainRest_alike (ih : ExprAlikeBelow ts.length) (h : SameKinds ts us) (rung : Rung)
    (rungs : List Rung) (e f : Expr) (he : e.Same f) :
    Alike Expr.Same (chainRest rung rungs e ts) (chainRest rung rungs f us) := by
  cases ts with
  | nil =>
    rw [h.eq_nil, chainRest, chainRest]
    exact alike_nothing he .nil
  | cons t ts =>
    obtain ⟨u, us, rfl, hk, hs⟩ := h.exists_cons
    rw [chainRest.eq_def, chainRest.eq_def rung rungs f (u :: us)]
    dsimp only
    rw [← hk]
    split
    · exact alike_nothing he (.cons hk hs)
    · rename_i joint _
      refine Alike.looseBehind (((ih ts us (Nat.lt_succ_self _) hs).chain rungs).andMaybe
        fun x y rest rest' hlt _ hx hr => ?_)
      exact (ih rest rest' (Nat.lt_succ_of_lt hlt) hr).chainRest rung rungs _ _
        (joint.bare_join he hx)

/-- Operands of rungs are read alike. -/
theorem chain_alike (ih : ExprAlikeBelow ts.length) (h : SameKinds ts us) (rungs : List Rung) :
    Alike Expr.Same (chain rungs ts) (chain rungs us) := by
  -- The operands are read from the same tokens, on one rung less.
  induction rungs with
  | nil =>
    rw [chain, chain]
    exact power_alike ih h
  | cons rung rungs ihr =>
    rw [chain, chain]
    refine ihr.andMaybe fun x y rest rest' hlt _ hx hr => ?_
    exact (ih rest rest' hlt hr).chainRest rung rungs x y hx

/-- What is assigned is read alike. -/
theorem assignment_alike (ih : ExprAlikeBelow ts.length) (h : SameKinds ts us) (e f : Expr)
    (he : e.Same f) : Alike Expr.Same (assignment e ts) (assignment f us) := by
  cases ts with
  | nil =>
    rw [h.eq_nil, assignment, assignment]
    exact alike_nothing he .nil
  | cons t ts =>
    obtain ⟨u, us, rfl, hk, hs⟩ := h.exists_cons
    rw [assignment.eq_def, assignment.eq_def f (u :: us)]
    dsimp only
    rw [← isSymbol_congr hk]
    split
    · -- Whether something can be assigned to does not depend on its place.
      rcases he.name_or with ⟨name, span, span', rfl, rfl⟩ | ⟨hne, hnf⟩
      · dsimp only
        refine Alike.looseBehind
          ((ih ts us (Nat.lt_succ_self _) hs).expression.map fun x y hx => ?_)
        unfold Expr.Same at *
        rw [Expr.bare, Expr.bare, hx]
      · split
        · exact absurd rfl (hne _ _)
        · exact .error (.cons hk hs)
    · exact alike_nothing he (.cons hk hs)

/-- What follows an item of a list is read alike. -/
theorem moreItems_alike (ih : ExprAlikeBelow ts.length) (h : SameKinds ts us) (close : Symbol)
    (want : Expectation) (e f : Expr) (he : e.Same f) :
    Alike (fun x y => SameExprs x.1 y.1) (moreItems close want e ts)
      (moreItems close want f us) := by
  have hitems {es fs : List Expr} (hs : SameExprs es fs) : SameExprs (e :: es) (f :: fs) := by
    unfold SameExprs Expr.Same at *
    rw [bareExprs, bareExprs, he, hs]
  cases ts with
  | nil =>
    rw [h.eq_nil, moreItems, moreItems]
    exact .error .nil
  | cons t ts =>
    obtain ⟨u, us, rfl, hk, hs⟩ := h.exists_cons
    rw [moreItems, moreItems, isSymbol_congr hk .comma, isSymbol_congr hk close]
    split
    · exact Alike.behind ((someItems_alike ih hs close want).map fun _ _ hx => hitems hx)
    · split
      · exact alike_token (hitems rfl) hs
      · exact .error (.cons hk hs)

/-- The readers of expressions make alike things of tokens of the same kinds. -/
theorem exprAlike (h : SameKinds ts us) : ExprAlike ts us := by
  induction hn : ts.length using Nat.strongRecOn generalizing ts us with
  | ind n hrec =>
    subst hn
    have ih : ExprAlikeBelow ts.length := fun ts' us' hlt h' => hrec _ hlt h' rfl
    have hchain := chain_alike ih h
    exact {
      expression := by
        rw [expression, expression]
        refine (hchain Rung.all).andMaybe fun x y rest rest' hlt _ hx hr => ?_
        exact (ih rest rest' hlt hr).assignment x y hx
      assignment := assignment_alike ih h
      chain := hchain
      chainRest := chainRest_alike ih h
      power := power_alike ih h
      exponent := exponent_alike ih h
      unary := unary_alike ih h
      suffixes := suffixes_alike ih h
      moreItems := moreItems_alike ih h
      primary := primary_alike ih h }

end Parser

end QuantumScript
