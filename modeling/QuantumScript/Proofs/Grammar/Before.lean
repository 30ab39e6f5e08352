import QuantumScript.Proofs.Grammar.Stmt

/-!
# What stands before the tokens of a kind

`Before` says that something holds of the tokens before each token of a kind, among some tokens with
others in front of them. It is put together from the parts of the tokens, so a fact of this form
follows the spelling: `SpellsClause.targets` is the one for `=`, which stands right behind a name
wherever tokens spell a clause.
-/

namespace QuantumScript.Grammar

open Token (Kind)

variable {kind : Kind} {P Q : List Token → Prop} {front ts xs ys : List Token}

/-- Something holds of what stands before each token of a kind among some tokens, together with some
tokens in front of all. -/
def Before (kind : Kind) (P : List Token → Prop) (front ts : List Token) : Prop :=
  ∀ us o rest, ts = us ++ o :: rest → o.kind = kind → P (front ++ us)

namespace Before

/-- Tokens of other kinds. -/
theorem none (h : ∀ t ∈ ts, t.kind ≠ kind) : Before kind P front ts := by
  rintro us o rest rfl ho
  exact absurd ho (h o (by simp))

/-- A token with others behind it; if it is of the kind, something holds of what is in front. -/
theorem consOf {t : Token} (ht : t.kind = kind → P front)
    (h : Before kind P (front ++ [t]) ts) : Before kind P front (t :: ts) := by
  rintro (_ | ⟨u, us⟩) o rest heq ho
  · cases heq
    simpa using ht ho
  · cases heq
    simpa using h us o rest rfl ho

/-- A token of another kind with others behind it. -/
theorem cons {t : Token} (ht : t.kind ≠ kind) (h : Before kind P (front ++ [t]) ts) :
    Before kind P front (t :: ts) :=
  consOf (fun hk => absurd hk ht) h

/-- A single token of another kind. -/
theorem single {t : Token} (ht : t.kind ≠ kind) : Before kind P front [t] :=
  none (by simpa using ht)

/-- Tokens one behind the other. -/
theorem append (hx : Before kind P front xs) (hy : Before kind P (front ++ xs) ys) :
    Before kind P front (xs ++ ys) := by
  intro us o rest heq ho
  rcases List.append_eq_append_iff.1 heq with ⟨vs, rfl, rfl⟩ | ⟨vs, rfl, hvs⟩
  · simpa using hy vs o rest rfl ho
  · cases vs with
    | nil =>
      rw [List.nil_append] at hvs
      simpa using hy [] o rest hvs.symm ho
    | cons v vs =>
      cases hvs
      exact hx us o vs rfl ho

/-- Tokens with others in front, of which something holds that follows from what held without
these. -/
theorem behind (h : Before kind P [] ts) (hq : ∀ us, us <+: ts → P us → Q (front ++ us)) :
    Before kind Q front ts := by
  rintro us o rest rfl ho
  exact hq us (List.prefix_append _ _) (h us o rest rfl ho)

end Before

/-! ## Tokens of no kind that matters -/

/-- Line ends are of one kind. -/
theorem LineEnds.kind_ne (h : LineEnds ts) (hk : kind ≠ .newline) : ∀ t ∈ ts, t.kind ≠ kind := by
  rintro t ht rfl
  have hn : t.isNewline := h t ht
  exact hk (by simpa [Token.isNewline] using hn)

/-- Separators are of two kinds. -/
theorem Separators.kind_ne (h : Separators ts) (hk : kind ≠ .newline)
    (hs : kind ≠ .symbol .semicolon) : ∀ t ∈ ts, t.kind ≠ kind := by
  rintro t ht rfl
  have hsep : t.isSeparator := h t ht
  simp [Token.isSeparator, Token.isNewline, Token.isSymbol, hk, hs] at hsep

/-- The names of parameters are spelled with names, commas and line ends. -/
theorem SpellsNames.kind_ne {names : List String} (h : SpellsNames names ts)
    (hk : kind ≠ .newline) (hc : kind ≠ .symbol .comma) (hn : ∀ name, kind ≠ .name name) :
    ∀ t ∈ ts, t.kind ≠ kind := by
  induction h with
  | none blank => exact blank.kind_ne hk
  | last hb labelled ha =>
    simp only [List.forall_mem_append, List.forall_mem_cons, labelled]
    exact ⟨hb.kind_ne hk, (hn _).symm, ha.kind_ne hk⟩
  | more hb labelled ha divided _ ih =>
    simp only [List.forall_mem_append, List.forall_mem_cons, labelled, divided]
    exact ⟨hb.kind_ne hk, (hn _).symm, ha.kind_ne hk, hc.symm, ih⟩

/-! ## What stands before `=` -/

/-- The last of some tokens spell a name. -/
def EndsWithName (front : List Token) : Prop :=
  ∃ name span target, target <:+ front ∧ Spells (.one .disjunction (.name name span)) target

/-- Tokens with others in front end as they do. -/
theorem EndsWithName.behind {us : List Token} (h : EndsWithName us) (front : List Token) :
    EndsWithName (front ++ us) := by
  obtain ⟨name, span, target, hends, hs⟩ := h
  exact ⟨name, span, target, hends.trans (List.suffix_append front us), hs⟩

/-- Some tokens with `=` only behind names. -/
abbrev Targets (front ts : List Token) : Prop :=
  Before (.symbol .assign) EndsWithName front ts

/-- Tokens with others in front have `=` only behind names if they have without these. -/
theorem Before.named (h : Targets [] ts) : Targets front ts :=
  h.behind fun _ _ hends => hends.behind front

/-- No operator between two operands is written `=`. -/
theorem Joint.kind_ne_assign (joint : Joint) : joint.kind ≠ .symbol .assign := by
  rcases joint with op | op <;> cases op <;> simp [Joint.kind]

/-- In a phrase, `=` stands only behind names. -/
theorem Spells.targets {phrase : Phrase} (h : Spells phrase ts) : Targets [] ts := by
  -- By induction over the spelling: each `=` but that of an assignment stands in a part.
  induction h with
  | atom atom =>
    refine .single fun hk => ?_
    simp [Token.atom?, hk] at atom
  | paren opens hb _ ha closes ih =>
    exact .cons (by simp [opens]) (.append (.none (hb.kind_ne (by decide))) (.append ih.named
      (.append (.none (ha.kind_ne (by decide))) (.single (by simp [closes])))))
  | array opens _ closes ih =>
    exact .cons (by simp [opens]) (.append ih.named (.single (by simp [closes])))
  | call _ _ opens _ closes ihc iha =>
    exact .append ihc (.cons (by simp [opens]) (.append iha.named (.single (by simp [closes]))))
  | member _ _ dotted labelled ih =>
    exact .append ih (.cons (by simp [dotted]) (.single (by simp [labelled])))
  | index _ _ opens hb _ ha closes iho ihp =>
    exact .append iho (.cons (by simp [opens]) (.append (.none (hb.kind_ne (by decide)))
      (.append ihp.named (.append (.none (ha.kind_ne (by decide))) (.single (by simp [closes]))))))
  | @unary _ _ op _ _ _ signed _ ih =>
    exact .cons (by rw [signed]; cases op <;> simp [UnaryOp.kind]) ih.named
  | @joined _ _ joint _ _ _ _ _ _ signed _ ihl ihr =>
    exact .append ihl (.cons (by rw [signed]; exact Joint.kind_ne_assign joint) ihr.named)
  | assign target _ _ iht ihs =>
    exact .append iht (.consOf (fun _ => ⟨_, _, _, List.suffix_refl _, target⟩) ihs.named)
  | none blank => exact .none (blank.kind_ne (by decide))
  | last hb _ ha ih =>
    exact .append (.none (hb.kind_ne (by decide))) (.append ih.named
      (.none (ha.kind_ne (by decide))))
  | more hb _ ha divided _ ihe ihr =>
    exact .append (.none (hb.kind_ne (by decide))) (.append ihe.named
      (.append (.none (ha.kind_ne (by decide))) (.cons (by simp [divided]) ihr.named)))

/-- In the condition after a keyword, `=` stands only behind names. -/
theorem SpellsCondition.targets {e : Expr} (h : SpellsCondition e ts) : Targets [] ts := by
  obtain ⟨opens, inner, closes⟩ := h
  exact .cons (by simp [opens]) (.append inner.targets.named (.single (by simp [closes])))

/-- In the clause after `for`, `=` stands only behind names. -/
theorem SpellsForClause.targets {binder : String} {e : Expr} (h : SpellsForClause binder e ts) :
    Targets [] ts := by
  obtain ⟨opens, labelled, worded, inner, closes⟩ := h
  exact .cons (by simp [opens]) (.cons (by simp [labelled]) (.cons (by simp [worded])
    (.append inner.targets.named (.single (by simp [closes])))))

/-- In a clause, `=` stands only behind names. -/
theorem SpellsClause.targets {apart : Stmt → List Token → Prop} {clause : Clause}
    (h : SpellsClause apart clause ts) : Targets [] ts := by
  induction h with
  | expr inner => exact inner.targets
  | block _ ih => exact ih
  | cond worded test hb _ ih | whileLoop worded test hb _ ih =>
    exact .cons (by simp [worded]) (.append test.targets.named
      (.append (.none (hb.kind_ne (by decide))) ih.named))
  | condElse worded test hb _ hbetween othered ha _ _ ihf ihs =>
    exact .cons (by simp [worded]) (.append test.targets.named
      (.append (.none (hb.kind_ne (by decide))) (.append ihf.named
        (.append (.none (hbetween.kind_ne (by decide))) (.cons (by simp [othered])
          (.append (.none (ha.kind_ne (by decide))) ihs.named))))))
  | forLoop worded clause hb _ ih =>
    exact .cons (by simp [worded]) (.append clause.targets.named
      (.append (.none (hb.kind_ne (by decide))) ih.named))
  | function worded labelled opens parameters closes hb _ ih =>
    exact .cons (by simp [worded]) (.cons (by simp [labelled]) (.cons (by simp [opens])
      (.append (.none (parameters.kind_ne (by decide) (by decide) (by simp)))
        (.cons (by simp [closes]) (.append (.none (hb.kind_ne (by decide))) ih.named)))))
  | giveBack worded => exact .single (by simp [worded])
  | giveBackValue worded inner => exact .cons (by simp [worded]) inner.targets.named
  | importing worded labelled => exact .cons (by simp [worded]) (.single (by simp [labelled]))
  | importingAs worded labelled knownAs named =>
    exact .cons (by simp [worded]) (.cons (by simp [labelled]) (.cons (by simp [knownAs])
      (.single (by simp [named]))))
  | braces opens hlead _ closes ih =>
    exact .cons (by simp [opens]) (.append (.none (hlead.kind_ne (by decide) (by decide)))
      (.append ih.named (.single (by simp [closes]))))
  | nil => exact .none (by simp)
  | cons _ hb _ _ ihf iho =>
    exact .append ihf (.append (.none (hb.kind_ne (by decide) (by decide))) iho.named)

/-- In a program, `=` stands only behind names. -/
theorem SpellsProgram.targets {apart : Stmt → List Token → Prop} {program : Program}
    (h : SpellsProgram apart program ts) : Targets [] ts := by
  obtain ⟨lead, rest, hlead, hbody, rfl⟩ := h
  exact .append (.none (hlead.kind_ne (by decide) (by decide))) hbody.targets.named

end QuantumScript.Grammar
