import QuantumScript.Proofs.Creation.Form

/-!
# The parts of a creation file

A creation file is read from left to right. A token that leads no form is passed over, and a word
that leads one is read together with what follows it. So the tokens are cut into parts (`PartsOf`),
in one way only (`PartsOf.unique`), unless some leading word goes on as no form does (`Malformed`);
the instructions are those of the parts, in order, and in the other case reading fails
(`forms_of_partsOf`, `forms_of_malformed`). What comes of a source text is put together in
`lower_reads_parts`.
-/

namespace QuantumScript.Creation

open Token Reading

/-- The words that lead a form. -/
def leadingWords : List String := ["universe", "entity", "manifest", "flow", "observe"]

/-- A token is a word that leads a form. -/
def Leads (t : Token) : Prop := ∃ word ∈ leadingWords, t.kind = .name word

/-- A part of a creation file. -/
inductive Part
  /-- A token that is passed over. -/
  | passed (t : Token)
  /-- The tokens of a form and its instruction. -/
  | form (run : List Token) (i : Instruction)

namespace Part

/-- The tokens of a part. -/
def tokens : Part → List Token
  | passed t => [t]
  | form run _ => run

/-- The instruction that a part spells, if it is a form. -/
def instruction? : Part → Option Instruction
  | passed _ => none
  | form _ i => some i

/-- A part is right by a rule: what is passed over leads no form, and a form spells its
instruction. -/
def Fits (rule : Rule) : Part → Prop
  | passed t => ¬ Leads t
  | form run i => Form rule run i

end Part

/-- Some tokens are made of parts, one after the other. -/
structure PartsOf (rule : Rule) (ts : List Token) (parts : List Part) : Prop where
  /-- Each part is right. -/
  fit : ∀ part ∈ parts, part.Fits rule
  /-- Together they are the tokens. -/
  whole : ts = parts.flatMap Part.tokens

/-- Behind some parts stands a leading word from which no form goes on. -/
def Malformed (ts : List Token) : Prop :=
  ∃ (parts : List Part) (word : Token) (rest : List Token),
    (∀ part ∈ parts, part.Fits .accepted) ∧ ts = parts.flatMap Part.tokens ++ word :: rest ∧
    Leads word ∧ ∀ run i after, Form .accepted run i → word :: rest ≠ run ++ after

variable {rule : Rule} {ts rest run : List Token} {t word : Token} {i : Instruction}
  {parts : List Part}

/-! ## One part -/

/-- A token leads no form exactly when it has no reader. -/
theorem form?_eq_none_iff : form? t = none ↔ ¬ Leads t := by
  unfold form?
  split
  iterate 5
    · rename_i hk
      exact iff_of_false nofun fun h => h ⟨_, by simp [leadingWords], hk⟩
  · rename_i h₁ h₂ h₃ h₄ h₅
    refine iff_of_true rfl ?_
    rintro ⟨word, hword, hk⟩
    simp only [leadingWords, List.mem_cons, List.not_mem_nil, or_false] at hword
    rcases hword with rfl | rfl | rfl | rfl | rfl <;> contradiction

/-- A leading word has a reader. -/
theorem Leads.exists_form (h : Leads t) : ∃ form, form? t = some form :=
  Option.ne_none_iff_exists'.1 fun hnone => form?_eq_none_iff.1 hnone h

/-- A form starts with the word that leads it. -/
theorem Form.exists_lead (h : Form rule run i) : ∃ word tail, run = word :: tail ∧ Leads word := by
  cases h with
  | cosmos led | entity led | manifest led | flow led | observe led =>
    exact ⟨_, _, rfl, _, by simp [leadingWords], led⟩

/-- A reading yields one thing. -/
theorem yields_unique {α : Type} {n : Nat} {reading : Except Stuck (Found α n)} {a b : α}
    {rest' : List Token} (h : Yields reading a rest) (h' : Yields reading b rest') :
    a = b ∧ rest = rest' := by
  obtain ⟨_, h⟩ := h
  obtain ⟨_, h'⟩ := h'
  cases h.symm.trans h'
  exact ⟨rfl, rfl⟩

/-- Tokens start with one form at most. -/
theorem Form.unique {run' rest' : List Token} {i' : Instruction} (h : Form .accepted run i)
    (h' : Form .accepted run' i') (heq : run ++ rest = run' ++ rest') :
    run = run' ∧ i = i' ∧ rest = rest' := by
  obtain ⟨word, tail, rfl, hlead⟩ := h.exists_lead
  obtain ⟨word', tail', rfl, -⟩ := h'.exists_lead
  obtain ⟨rfl, htails⟩ := List.cons.inj heq
  obtain ⟨form, hform⟩ := hlead.exists_form
  obtain ⟨rfl, rfl⟩ := yields_unique ((yields_form hform).2 ⟨tail, h, rfl⟩)
    ((yields_form hform).2 ⟨tail', h', htails⟩)
  exact ⟨congrArg _ (List.append_cancel_right htails), rfl, rfl⟩

/-- A token that leads no form is passed over. -/
theorem forms_passed (h : ¬ Leads t) : forms (t :: rest) = forms rest := by
  rw [forms, form?_eq_none_iff.2 h]

/-- A form at the front gives its instruction. -/
theorem forms_form (h : Form .accepted run i) :
    forms (run ++ rest) = (forms rest).map fun others => i :: others := by
  obtain ⟨word, tail, rfl, hlead⟩ := h.exists_lead
  obtain ⟨form, hform⟩ := hlead.exists_form
  obtain ⟨hlt, hread⟩ := (yields_form hform).2 ⟨tail, h, rfl⟩
  rw [List.cons_append, forms, hform]
  dsimp only
  rw [hread]

/-! ## All parts -/

/-- Parts at the front give their instructions. -/
theorem forms_append (h : ∀ part ∈ parts, Part.Fits .accepted part) (rest : List Token) :
    forms (parts.flatMap Part.tokens ++ rest) =
      (forms rest).map fun others => parts.filterMap Part.instruction? ++ others := by
  induction parts with
  | nil =>
    show forms rest = _
    cases forms rest <;> rfl
  | cons part parts ih =>
    obtain ⟨hpart, hparts⟩ := List.forall_mem_cons.1 h
    rw [List.flatMap_cons, List.append_assoc]
    cases part with
    | passed t =>
      show forms (t :: (parts.flatMap Part.tokens ++ rest)) = _
      rw [forms_passed hpart, ih hparts]
      rfl
    | form run i =>
      show forms (run ++ (parts.flatMap Part.tokens ++ rest)) = _
      rw [forms_form hpart, ih hparts]
      cases forms rest <;> rfl

/-- Tokens that are made of parts give the instructions of the parts. -/
theorem forms_of_partsOf (h : PartsOf .accepted ts parts) :
    forms ts = .ok (parts.filterMap Part.instruction?) := by
  have hforms := forms_append h.fit []
  rw [List.append_nil, ← h.whole] at hforms
  rw [hforms, forms]
  simp [Except.map]

/-- Malformed tokens give no instructions. -/
theorem forms_of_malformed (h : Malformed ts) : ∃ stuck, forms ts = .error stuck := by
  obtain ⟨parts, word, rest, hparts, rfl, hlead, hstray⟩ := h
  obtain ⟨form, hform⟩ := hlead.exists_form
  have hrest : ∃ stuck, forms (word :: rest) = .error stuck := by
    rw [forms, hform]
    dsimp only
    cases hread : form rest with
    | error stuck => exact ⟨stuck, rfl⟩
    | ok found =>
      -- What is read is a form, and none goes on here.
      obtain ⟨run, hrun, heq⟩ := (yields_form hform).1 ⟨found.shorter, hread⟩
      exact absurd (congrArg (word :: ·) heq) (hstray _ _ found.rest hrun)
  obtain ⟨stuck, hstuck⟩ := hrest
  exact ⟨stuck, by rw [forms_append hparts, hstuck]; rfl⟩

/-- One more token that is passed over, in front of parts. -/
theorem PartsOf.cons {part : Part} (hpart : part.Fits rule) (h : PartsOf rule ts parts) :
    PartsOf rule (part.tokens ++ ts) (part :: parts) :=
  ⟨List.forall_mem_cons.2 ⟨hpart, h.fit⟩, by rw [List.flatMap_cons, ← h.whole]⟩

/-- Malformed tokens stay so behind one more part. -/
theorem Malformed.cons {part : Part} (hpart : part.Fits .accepted) (h : Malformed ts) :
    Malformed (part.tokens ++ ts) := by
  obtain ⟨parts, word, rest, hparts, rfl, hlead, hstray⟩ := h
  exact ⟨part :: parts, word, rest, List.forall_mem_cons.2 ⟨hpart, hparts⟩, by simp, hlead, hstray⟩

/-- Tokens are made of parts or malformed. -/
theorem exists_partsOf_or_malformed (ts : List Token) :
    (∃ parts, PartsOf .accepted ts parts) ∨ Malformed ts := by
  -- The induction is on the number of tokens: behind a part stand fewer.
  induction hn : ts.length using Nat.strongRecOn generalizing ts with
  | ind n ih =>
    subst hn
    -- Behind a part that fits, all is as it is for what follows.
    have hbehind (part : Part) (rest : List Token) (hpart : part.Fits .accepted)
        (hts : part.tokens ++ rest = ts) (hlt : rest.length < ts.length) :
        (∃ parts, PartsOf .accepted ts parts) ∨ Malformed ts := by
      rw [← hts]
      rcases ih _ hlt rest rfl with ⟨parts, hparts⟩ | hmal
      · exact .inl ⟨part :: parts, hparts.cons hpart⟩
      · exact .inr (hmal.cons hpart)
    cases ts with
    | nil => exact .inl ⟨[], nofun, rfl⟩
    | cons t after =>
      by_cases hlead : Leads t
      · by_cases hform : ∃ run i rest, Form .accepted run i ∧ t :: after = run ++ rest
        · obtain ⟨run, i, rest, hrun, heq⟩ := hform
          obtain ⟨_, tail, rfl, -⟩ := hrun.exists_lead
          have hlt : rest.length < (t :: after).length := by
            rw [heq, List.length_append, List.length_cons]
            omega
          exact hbehind (.form _ i) rest hrun heq.symm hlt
        · refine .inr ⟨[], t, after, nofun, rfl, hlead, fun run i rest hrun heq => ?_⟩
          exact hform ⟨run, i, rest, hrun, heq⟩
      · exact hbehind (.passed t) after hlead rfl (Nat.lt_succ_self _)

/-- A part has tokens. -/
theorem Part.tokens_ne_nil {part : Part} (h : part.Fits rule) : part.tokens ≠ [] := by
  cases part with
  | passed t => nofun
  | form run i =>
    obtain ⟨word, tail, rfl, -⟩ := Form.exists_lead h
    nofun

/-- Tokens start with one part. -/
theorem Part.unique {part other : Part} {rest' : List Token} (h : part.Fits .accepted)
    (h' : other.Fits .accepted) (heq : part.tokens ++ rest = other.tokens ++ rest') :
    part = other ∧ rest = rest' := by
  cases part with
  | passed t =>
    cases other with
    | passed u =>
      cases heq
      exact ⟨rfl, rfl⟩
    | form run i =>
      -- A form would start with a leading word, which is not passed over.
      obtain ⟨word, tail, rfl, hlead⟩ := Form.exists_lead h'
      cases heq
      exact absurd hlead h
  | form run i =>
    cases other with
    | passed u =>
      obtain ⟨word, tail, rfl, hlead⟩ := Form.exists_lead h
      cases heq
      exact absurd hlead h'
    | form run' i' =>
      obtain ⟨rfl, rfl, rfl⟩ := Form.unique h h' heq
      exact ⟨rfl, rfl⟩

/-- Tokens are made of parts in one way. -/
theorem PartsOf.unique {others : List Part} (h : PartsOf .accepted ts parts)
    (h' : PartsOf .accepted ts others) : parts = others := by
  induction parts generalizing ts others with
  | nil =>
    cases others with
    | nil => rfl
    | cons other others =>
      have heq : other.tokens ++ others.flatMap Part.tokens = [] := h'.whole.symm.trans h.whole
      exact absurd (List.append_eq_nil_iff.1 heq).1
        (Part.tokens_ne_nil (h'.fit other List.mem_cons_self))
  | cons part parts ih =>
    obtain ⟨hpart, hparts⟩ := List.forall_mem_cons.1 h.fit
    cases others with
    | nil =>
      have heq : part.tokens ++ parts.flatMap Part.tokens = [] := h.whole.symm.trans h'.whole
      exact absurd (List.append_eq_nil_iff.1 heq).1 (Part.tokens_ne_nil hpart)
    | cons other others =>
      obtain ⟨hother, hothers⟩ := List.forall_mem_cons.1 h'.fit
      obtain ⟨rfl, hrest⟩ := Part.unique hpart hother (h.whole.symm.trans h'.whole)
      rw [ih ⟨hparts, rfl⟩ ⟨hothers, hrest⟩]

/-- Parts of the accepted kind are of the documented kind exactly when no form closes anything
before its end or lets anything flow but time. -/
theorem PartsOf.documented_iff (h : PartsOf .accepted ts parts) :
    PartsOf .documented ts parts ↔
      ∀ run i, Part.form run i ∈ parts → ClosesOnce run ∧ TimeFlows run i := by
  constructor
  · intro hdocumented run i hmem
    exact (Form.documented_iff (h.fit _ hmem)).1 (hdocumented.fit _ hmem)
  · intro hforms
    refine ⟨fun part hpart => ?_, h.whole⟩
    cases part with
    | passed t => exact h.fit _ hpart
    | form run i => exact (Form.documented_iff (h.fit _ hpart)).2 (hforms run i hpart)

/-- Documented parts are accepted ones. -/
theorem PartsOf.accepted (h : PartsOf .documented ts parts) : PartsOf .accepted ts parts := by
  refine ⟨fun part hpart => ?_, h.whole⟩
  have hfits := h.fit part hpart
  cases part with
  | passed t => exact hfits
  | form run i => exact Form.accepted hfits

/-! ## Source texts -/

/-- The tokens that a creation file is made of: all but line ends. -/
def significant (ts : List Token) : List Token :=
  ts.filter fun t => !t.isNewline

/-- A fault of a reader of tokens is one of grammar. -/
theorem category_fault (stuck : Stuck) (ending : Span) :
    (stuck.fault ending).cause.category = .grammar := by
  obtain ⟨reason, rest⟩ := stuck
  cases rest <;> cases reason <;> rfl

/-- A text whose tokens are known is lowered as they are. -/
theorem lower_of_tokenize {source : String} {tokens : Tokens} (h : tokenize source = .ok tokens) :
    lower source =
      match forms (significant tokens.items) with
      | .ok instructions => .ok instructions
      | .error stuck => .error (stuck.fault tokens.ending) := by
  rw [lower, h]
  rfl

/-- A text made of parts is lowered to the instructions of the parts. -/
theorem lower_of_partsOf {source : String} {tokens : Tokens} (h : tokenize source = .ok tokens)
    (hparts : PartsOf .accepted (significant tokens.items) parts) :
    lower source = .ok (parts.filterMap Part.instruction?) := by
  rw [lower_of_tokenize h, forms_of_partsOf hparts]

/-- A malformed text is not lowered, for a fault of grammar. -/
theorem lower_of_malformed {source : String} {tokens : Tokens} (h : tokenize source = .ok tokens)
    (hmal : Malformed (significant tokens.items)) :
    ∃ fault, lower source = .error fault ∧ fault.cause.category = .grammar := by
  obtain ⟨stuck, hstuck⟩ := forms_of_malformed hmal
  rw [lower_of_tokenize h, hstuck]
  exact ⟨_, rfl, category_fault stuck tokens.ending⟩

/-- What a text is lowered to are the instructions of the parts that it is made of. -/
theorem exists_partsOf_of_lower {source : String} {instructions : List Instruction}
    (h : lower source = .ok instructions) :
    ∃ tokens parts, tokenize source = .ok tokens ∧
      PartsOf .accepted (significant tokens.items) parts ∧
      parts.filterMap Part.instruction? = instructions := by
  cases htokens : tokenize source with
  | error fault =>
    rw [lower, htokens] at h
    cases h
  | ok tokens =>
    rcases exists_partsOf_or_malformed (significant tokens.items) with ⟨parts, hparts⟩ | hmal
    · exact ⟨tokens, parts, rfl, hparts,
        Except.ok.inj ((lower_of_partsOf htokens hparts).symm.trans h)⟩
    · obtain ⟨fault, hfault, -⟩ := lower_of_malformed htokens hmal
      cases h.symm.trans hfault

/-- A source text whose tokens can be read is lowered exactly when they are made of accepted parts,
to the instructions of those parts. They are made of them in one way, and all of the forms are
documented ones exactly when no brace closes anything before the end of its form and nothing flows
but time. The text is refused, for a fault of grammar, exactly when a leading word goes on as no
accepted form does. -/
theorem lower_reads_parts {source : String} {tokens : Tokens} (h : tokenize source = .ok tokens) :
    (∀ instructions, lower source = .ok instructions ↔
      ∃ parts, PartsOf .accepted (significant tokens.items) parts ∧
        parts.filterMap Part.instruction? = instructions) ∧
    (∀ parts, PartsOf .accepted (significant tokens.items) parts →
      (∀ others, PartsOf .accepted (significant tokens.items) others → others = parts) ∧
      (PartsOf .documented (significant tokens.items) parts ↔
        ∀ run i, Part.form run i ∈ parts → ClosesOnce run ∧ TimeFlows run i)) ∧
    ((∃ fault, lower source = .error fault ∧ fault.cause.category = .grammar) ↔
      Malformed (significant tokens.items)) := by
  have hcases := exists_partsOf_or_malformed (significant tokens.items)
  refine ⟨fun instructions => ⟨fun hlower => ?_, ?_⟩, fun parts hparts => ?_,
    fun ⟨fault, hlower, _⟩ => ?_, lower_of_malformed h⟩
  · rcases hcases with ⟨parts, hparts⟩ | hmal
    · exact ⟨parts, hparts, Except.ok.inj ((lower_of_partsOf h hparts).symm.trans hlower)⟩
    · obtain ⟨fault, hfault, -⟩ := lower_of_malformed h hmal
      cases hlower.symm.trans hfault
  · rintro ⟨parts, hparts, rfl⟩
    exact lower_of_partsOf h hparts
  · exact ⟨fun others hothers => hothers.unique hparts, hparts.documented_iff⟩
  · rcases hcases with ⟨parts, hparts⟩ | hmal
    · cases hlower.symm.trans (lower_of_partsOf h hparts)
    · exact hmal

/-- The tokens of `entity A { k: } }`. -/
def braceTokens : Tokens :=
  ⟨[⟨.name "entity", ⟨0, 6, 1, 1⟩, "entity"⟩, ⟨.name "A", ⟨7, 8, 1, 8⟩, "A"⟩,
    ⟨.symbol .openBrace, ⟨9, 10, 1, 10⟩, "\x7b"⟩, ⟨.name "k", ⟨11, 12, 1, 12⟩, "k"⟩,
    ⟨.symbol .colon, ⟨12, 13, 1, 13⟩, ":"⟩, ⟨.symbol .closeBrace, ⟨14, 15, 1, 15⟩, "\x7d"⟩,
    ⟨.symbol .closeBrace, ⟨16, 17, 1, 17⟩, "\x7d"⟩], ⟨17, 17, 1, 18⟩⟩

/-- An entity whose property has a brace for its value is lowered, and its form is no documented
one. -/
theorem lower_reads_parts_brace :
    tokenize "entity A \x7b k: \x7d \x7d" = .ok braceTokens ∧
      lower "entity A \x7b k: \x7d \x7d" = .ok [.entity "A" [("k", .text "\x7d")]] ∧
      ¬ PartsOf .documented (significant braceTokens.items)
        [.form (significant braceTokens.items) (.entity "A" [("k", .text "\x7d")])] := by
  have htokens : tokenize "entity A \x7b k: \x7d \x7d" = .ok braceTokens := by
    with_unfolding_all rfl
  have hform : Form .accepted (significant braceTokens.items) (.entity "A" [("k", .text "\x7d")]) :=
    .entity rfl rfl rfl (@EntityBody.property _ _ _ _ _ [] [] _ rfl rfl trivial (.inl rfl) .nil) rfl
  have hparts : PartsOf .accepted (significant braceTokens.items)
      [.form (significant braceTokens.items) (.entity "A" [("k", .text "\x7d")])] :=
    ⟨List.forall_mem_singleton.2 hform, by simp [Part.tokens]⟩
  obtain ⟨hlower, hdocumented, -⟩ := lower_reads_parts htokens
  refine ⟨htokens, (hlower _).2 ⟨_, hparts, rfl⟩, fun hdoc => ?_⟩
  -- The first brace closes the value, and the form goes on behind it.
  obtain ⟨hcloses, -⟩ := ((hdocumented _ hparts).2.1 hdoc) _ _ List.mem_cons_self
  exact hcloses ⟨.symbol .closeBrace, ⟨14, 15, 1, 15⟩, "\x7d"⟩ (by decide) rfl

/-- The tokens of `flow space on`. -/
def spaceTokens : Tokens :=
  ⟨[⟨.name "flow", ⟨0, 4, 1, 1⟩, "flow"⟩, ⟨.name "space", ⟨5, 10, 1, 6⟩, "space"⟩,
    ⟨.name "on", ⟨11, 13, 1, 12⟩, "on"⟩], ⟨13, 13, 1, 14⟩⟩

/-- Space may flow as well: the text is lowered, though it is not made of documented parts. -/
theorem lower_lets_space_flow :
    tokenize "flow space on" = .ok spaceTokens ∧
      lower "flow space on" = .ok [.flowTime "on"] ∧
      ∀ parts, ¬ PartsOf .documented (significant spaceTokens.items) parts := by
  have htokens : tokenize "flow space on" = .ok spaceTokens := by
    with_unfolding_all rfl
  have hparts : PartsOf .accepted (significant spaceTokens.items)
      [.form (significant spaceTokens.items) (.flowTime "on")] :=
    ⟨List.forall_mem_singleton.2 (.flow rfl ⟨"space", rfl⟩), by simp [Part.tokens]⟩
  refine ⟨htokens, lower_of_partsOf htokens hparts, fun parts hdoc => ?_⟩
  -- Documented parts would be the accepted ones, of which there is one.
  have heq := hdoc.accepted.unique hparts
  subst heq
  obtain ⟨-, hflows⟩ := (hparts.documented_iff.1 hdoc) _ _ List.mem_cons_self
  obtain ⟨t, ht, htime⟩ := hflows "on" rfl
  cases ht
  exact absurd htime (by decide)

end QuantumScript.Creation
