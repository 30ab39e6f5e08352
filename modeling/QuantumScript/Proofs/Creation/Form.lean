import QuantumScript.Creation.Lower
import QuantumScript.Proofs.Reading

/-!
# The forms of a creation file

`Form rule` says which tokens spell an instruction. A rule leaves two things open: which word may
follow `flow`, and which token may be the value of a property of an entity. Under `Rule.documented`
time flows and a closing brace is no value; the reader goes by `Rule.accepted`, which takes any name
and any token there. What the reader of a form takes is exactly what the accepted rule allows
(`yields_form`), and a form that is accepted is documented unless one of the two was used
(`Form.documented_iff`).
-/

namespace QuantumScript

/-- Properties with entries put one after the other. -/
def Properties.putAll (entries : List (String × Json)) (found : Properties) : Properties :=
  entries.foldl (fun found entry => Properties.put entry.1 entry.2 found) found

namespace Creation

open Token Reading

/-- What the forms leave open. -/
structure Rule where
  /-- The tokens that may follow the word `flow`. -/
  flowWord : Token → Prop
  /-- The tokens that may be the value of a property of an entity. -/
  entityValue : Token → Prop

/-- The rule as it is documented: time flows, and a value does not close the body. -/
def Rule.documented : Rule where
  flowWord t := t.kind = .name "time"
  entityValue t := t.kind ≠ .symbol .closeBrace

/-- The rule that the reader goes by: any name and any value. -/
def Rule.accepted : Rule where
  flowWord t := ∃ word, t.kind = .name word
  entityValue _ := True

/-- The values of a property of a universe: no token closes the body, and none is a name with a
colon behind it. -/
structure Values (values : List Token) : Prop where
  /-- No token closes the body. -/
  inside : ∀ v ∈ values, v.kind ≠ .symbol .closeBrace
  /-- No property starts among them. -/
  plain : ∀ tail, tail <:+ values → startsProperty tail = false

/-- What the values of a property stand for, commas left out. -/
def literals (values : List Token) : List Json :=
  (values.filter fun v => !v.isSymbol .comma).map literal

/-- The tokens between the braces of a universe and the entries that they spell. -/
inductive CosmosBody : List Token → List (String × Json) → Prop
  /-- No property. -/
  | nil : CosmosBody [] []
  /-- A name, a colon, values, and more properties. -/
  | property {key colon : Token} {name : String} {values rest : List Token}
    {entries : List (String × Json)} (named : key.kind = .name name)
    (parted : colon.kind = .symbol .colon) (plain : Values values)
    (more : CosmosBody rest entries) :
    CosmosBody (key :: colon :: (values ++ rest)) ((name, collect (literals values)) :: entries)

/-- A comma or nothing. -/
def OptionalComma (ts : List Token) : Prop :=
  ts = [] ∨ ∃ comma : Token, comma.kind = .symbol .comma ∧ ts = [comma]

/-- The tokens between the braces of an entity, whose values fit, and the entries that they
spell. -/
inductive EntityBody (fits : Token → Prop) : List Token → List (String × Json) → Prop
  /-- No property. -/
  | nil : EntityBody fits [] []
  /-- A name, a colon, a value, perhaps a comma, and more properties. -/
  | property {key colon value : Token} {name : String} {comma rest : List Token}
    {entries : List (String × Json)} (named : key.kind = .name name)
    (parted : colon.kind = .symbol .colon) (valued : fits value) (spaced : OptionalComma comma)
    (more : EntityBody fits rest entries) :
    EntityBody fits (key :: colon :: value :: (comma ++ rest)) ((name, literal value) :: entries)

/-- The tokens of a form and the instruction that they spell. -/
inductive Form (rule : Rule) : List Token → Instruction → Prop
  /-- A universe with a name and properties between braces. -/
  | cosmos {word label opening closing : Token} {name : String} {body : List Token}
    {entries : List (String × Json)} (led : word.kind = .name "universe")
    (named : label.kind = .name name) (opened : opening.kind = .symbol .openBrace)
    (inside : CosmosBody body entries) (closed : closing.kind = .symbol .closeBrace) :
    Form rule (word :: label :: opening :: (body ++ [closing]))
      (.cosmos name (Properties.putAll entries []))
  /-- An entity with a name and properties between braces. -/
  | entity {word label opening closing : Token} {name : String} {body : List Token}
    {entries : List (String × Json)} (led : word.kind = .name "entity")
    (named : label.kind = .name name) (opened : opening.kind = .symbol .openBrace)
    (inside : EntityBody rule.entityValue body entries)
    (closed : closing.kind = .symbol .closeBrace) :
    Form rule (word :: label :: opening :: (body ++ [closing]))
      (.entity name (Properties.putAll entries []))
  /-- A universe and an entity with the word `with` between them. -/
  | manifest {word host joint guest : Token} {place visitor : String}
    (led : word.kind = .name "manifest") (placed : host.kind = .name place)
    (joined : joint.kind = .name "with") (hosted : guest.kind = .name visitor) :
    Form rule [word, host, joint, guest] (.manifest place visitor)
  /-- A direction in which time flows. -/
  | flow {word time direction : Token} (led : word.kind = .name "flow")
    (timed : rule.flowWord time) :
    Form rule [word, time, direction] (.flowTime (tokenText direction))
  /-- A name to be observed. -/
  | observe {word target : Token} {name : String} (led : word.kind = .name "observe")
    (named : target.kind = .name name) : Form rule [word, target] (.observe name)

variable {rule : Rule} {ts values rest after run : List Token} {t word : Token}
  {found properties : Properties} {entries : List (String × Json)} {i : Instruction}

/-! ## The values of a property -/

/-- Tokens at which the values of a property end: a closing brace or the next property. -/
def EndsValues (ts : List Token) : Prop :=
  ∃ t after, ts = t :: after ∧ (t.kind = .symbol .closeBrace ∨ startsProperty ts = true)

/-- A property that starts some tokens starts with a name and a colon. -/
theorem startsProperty_iff :
    startsProperty ts = true ↔ ∃ key colon name after, ts = key :: colon :: after ∧
      key.kind = .name name ∧ colon.kind = .symbol .colon := by
  match ts with
  | [] => simp [startsProperty]
  | [t] => simp [startsProperty]
  | t :: u :: after =>
    simp only [startsProperty]
    constructor
    · intro h
      split at h
      · rename_i name hk
        exact ⟨t, u, name, after, rfl, hk, of_decide_eq_true h⟩
      · cases h
    · rintro ⟨key, colon, name, _, ⟨⟩, hk, hc⟩
      simp [hk, hc, isSymbol]

/-- Tokens that start with no property do not do so without those at their end. -/
theorem startsProperty_of_append (h : startsProperty (ts ++ rest) = false) :
    startsProperty ts = false := by
  rw [Bool.eq_false_iff] at h ⊢
  rw [Ne, startsProperty_iff] at h ⊢
  rintro ⟨key, colon, name, after, rfl, hk, hc⟩
  exact h ⟨key, colon, name, after ++ rest, rfl, hk, hc⟩

/-- A token before the end of the values starts no property if it starts none among the values. -/
theorem startsProperty_append (h : startsProperty (t :: values) = false) (hends : EndsValues rest) :
    startsProperty (t :: (values ++ rest)) = false := by
  rw [Bool.eq_false_iff, Ne, startsProperty_iff] at h ⊢
  rintro ⟨key, colon, name, after, heq, hk, hc⟩
  obtain ⟨hkey, htail⟩ := List.cons.inj heq
  rw [← hkey] at hk
  cases values with
  | cons v values =>
    rw [← (List.cons.inj htail).1] at hc
    exact h ⟨t, v, name, values, rfl, hk, hc⟩
  | nil =>
    -- The colon would be the token at which the values end.
    obtain ⟨u, tail, rfl, hu | hu⟩ := hends
    · rw [(List.cons.inj htail).1, hc] at hu
      cases hu
    · obtain ⟨key', _, _, _, hrest, hk', -⟩ := startsProperty_iff.1 hu
      rw [← (List.cons.inj hrest).1, (List.cons.inj htail).1, hc] at hk'
      cases hk'

/-- The values of a property are taken up to where they end. -/
theorem splitValues_append (h : Values values) (hends : EndsValues rest) :
    splitValues (values ++ rest) = (literals values, rest) := by
  induction values with
  | nil =>
    obtain ⟨u, tail, rfl, hu | hu⟩ := hends
    · simp [splitValues, isSymbol, hu, literals]
    · simp [splitValues, hu, literals]
  | cons v values ih =>
    have htail : Values values :=
      ⟨fun u hu => h.inside u (List.mem_cons_of_mem v hu),
        fun tail htail => h.plain tail (htail.trans (List.suffix_cons v values))⟩
    have hclose : v.isSymbol .closeBrace = false :=
      decide_eq_false (h.inside v List.mem_cons_self)
    have hstart := startsProperty_append (h.plain (v :: values) (List.suffix_refl _)) hends
    rw [List.cons_append, splitValues, hclose, hstart, ih htail]
    by_cases hcomma : v.isSymbol .comma <;> simp [literals, hcomma]

/-- What is taken as the values of a property are values, and what is left is nothing or does not go
on with them. -/
theorem exists_values (ts : List Token) :
    ∃ values, Values values ∧ ts = values ++ (splitValues ts).2 ∧
      (splitValues ts).1 = literals values ∧
      ((splitValues ts).2 = [] ∨ EndsValues (splitValues ts).2) := by
  induction ts with
  | nil => exact ⟨[], ⟨nofun, fun _ h => by rw [List.suffix_nil.1 h]; rfl⟩, rfl, rfl, .inl rfl⟩
  | cons t ts ih =>
    rw [splitValues]
    split
    · rename_i hends
      refine ⟨[], ⟨nofun, fun _ h => by rw [List.suffix_nil.1 h]; rfl⟩, rfl, rfl, .inr ?_⟩
      exact ⟨t, ts, rfl, by simpa [isSymbol] using hends⟩
    · rename_i hgoes
      simp only [isSymbol, Bool.or_eq_true, decide_eq_true_eq, not_or, Bool.not_eq_true] at hgoes
      obtain ⟨values, hvalues, hts, hliterals, hleft⟩ := ih
      refine ⟨t :: values, ⟨?_, fun tail htail => ?_⟩, congrArg (t :: ·) hts, ?_, hleft⟩
      · exact List.forall_mem_cons.2 ⟨hgoes.1, hvalues.inside⟩
      · rcases List.suffix_cons_iff.1 htail with rfl | htail
        · have hstart := hgoes.2
          rw [hts, ← List.cons_append] at hstart
          exact startsProperty_of_append hstart
        · exact hvalues.plain tail htail
      · by_cases hcomma : t.isSymbol .comma <;> simp [literals, hcomma, hliterals]

/-! ## What the readers of bodies take -/

/-- The properties of a universe and the brace behind them end the values before them. -/
theorem CosmosBody.endsValues {body : List Token} {closing : Token} (h : CosmosBody body entries)
    (hc : closing.kind = .symbol .closeBrace) (rest : List Token) :
    EndsValues (body ++ closing :: rest) := by
  cases h with
  | nil => exact ⟨closing, rest, rfl, .inl hc⟩
  | property named parted plain more =>
    exact ⟨_, _, rfl, .inr (startsProperty_iff.2 ⟨_, _, _, _, rfl, named, parted⟩)⟩

/-- The reader of a universe's properties takes a body and the brace behind it. -/
theorem yields_cosmosProperties :
    Yields (cosmosProperties found ts) properties rest ↔
      ∃ body entries closing, CosmosBody body entries ∧
        Token.kind closing = .symbol .closeBrace ∧ ts = body ++ closing :: rest ∧
        properties = Properties.putAll entries found := by
  constructor
  · -- The induction is on the number of tokens: behind a property stand fewer.
    intro h
    induction hn : ts.length using Nat.strongRecOn generalizing ts found with
    | ind n ih =>
      subst hn
      cases ts with
      | nil =>
        rw [cosmosProperties] at h
        exact absurd h yields_error
      | cons t after =>
        rw [cosmosProperties] at h
        split at h
        · rename_i hclose
          obtain ⟨rfl, rfl⟩ := yields_token.1 h
          exact ⟨[], [], t, .nil, by simpa [isSymbol] using hclose, rfl, rfl⟩
        · simp only [yields_andThen, yields_widen] at h
          obtain ⟨⟨name, span⟩, mid, hkey, colon, tail, hcolon, h⟩ := h
          obtain ⟨key, hmid, hk, -⟩ := yields_takeName.1 hkey
          obtain ⟨rfl, hc⟩ := yields_takeSymbol.1 hcolon
          obtain ⟨values, hvalues, htail, hliterals, -⟩ := exists_values tail
          have hlt : (splitValues tail).2.length < (t :: after).length := by
            have := length_splitValues_le tail
            have := congrArg List.length hmid
            simp only [List.length_cons] at this ⊢
            omega
          obtain ⟨body, entries, closing, hbody, hclosing, hrest, rfl⟩ := ih _ hlt h rfl
          refine ⟨_, _, closing, .property hk hc hvalues hbody, hclosing, ?_, ?_⟩
          · rw [hmid, htail, hrest]
            simp
          · rw [hliterals]
            rfl
  · rintro ⟨body, entries, closing, hbody, hclosing, rfl, rfl⟩
    induction hbody generalizing found with
    | nil =>
      rw [List.nil_append, cosmosProperties, if_pos (by simp [isSymbol, hclosing])]
      exact yields_token.2 ⟨rfl, rfl⟩
    | @property key colon name values more entries named parted plain hmore ih =>
      have hsplit : splitValues (values ++ (more ++ closing :: rest)) =
          (literals values, more ++ closing :: rest) :=
        splitValues_append plain (hmore.endsValues hclosing rest)
      rw [List.cons_append, cosmosProperties, if_neg (by simp [isSymbol, named])]
      simp only [yields_andThen, yields_widen]
      refine ⟨(name, key.span), colon :: (values ++ more ++ closing :: rest),
        yields_takeName.2 ⟨key, rfl, named, rfl⟩, colon, values ++ more ++ closing :: rest,
        yields_takeSymbol.2 ⟨rfl, parted⟩, ?_⟩
      rw [List.append_assoc, hsplit]
      exact ih

/-- The tokens behind a comma that may be missing, where no comma follows. -/
theorem skipComma_append {comma : List Token} (h : OptionalComma comma)
    (hrest : ∀ t after, rest = t :: after → t.kind ≠ .symbol .comma) :
    skipComma (comma ++ rest) = rest := by
  rcases h with rfl | ⟨c, hc, rfl⟩
  · cases rest with
    | nil => rfl
    | cons t after => simp [skipComma, isSymbol, hrest t after rfl]
  · simp [skipComma, isSymbol, hc]

/-- What is skipped is a comma or nothing. -/
theorem exists_optionalComma (ts : List Token) :
    ∃ comma, OptionalComma comma ∧ ts = comma ++ skipComma ts := by
  cases ts with
  | nil => exact ⟨[], .inl rfl, rfl⟩
  | cons t after =>
    rw [skipComma]
    split
    · rename_i hc
      exact ⟨[t], .inr ⟨t, by simpa [isSymbol] using hc, rfl⟩, rfl⟩
    · exact ⟨[], .inl rfl, rfl⟩

/-- Neither the properties of an entity nor the brace behind them start with a comma. -/
theorem EntityBody.ne_comma {fits : Token → Prop} {body : List Token} {closing : Token}
    (h : EntityBody fits body entries) (hc : closing.kind = .symbol .closeBrace)
    (heq : body ++ closing :: rest = t :: after) : t.kind ≠ .symbol .comma := by
  cases h with
  | nil =>
    rw [← (List.cons.inj heq).1, hc]
    nofun
  | property named _ _ _ _ =>
    rw [← (List.cons.inj heq).1, named]
    nofun

/-- The reader of an entity's properties takes a body, with any values, and the brace behind it. -/
theorem yields_entityProperties :
    Yields (entityProperties found ts) properties rest ↔
      ∃ body entries closing, EntityBody Rule.accepted.entityValue body entries ∧
        Token.kind closing = .symbol .closeBrace ∧ ts = body ++ closing :: rest ∧
        properties = Properties.putAll entries found := by
  constructor
  · -- The induction is on the number of tokens: behind a property stand fewer.
    intro h
    induction hn : ts.length using Nat.strongRecOn generalizing ts found with
    | ind n ih =>
      subst hn
      cases ts with
      | nil =>
        rw [entityProperties] at h
        exact absurd h yields_error
      | cons t after =>
        rw [entityProperties] at h
        split at h
        · rename_i hclose
          obtain ⟨rfl, rfl⟩ := yields_token.1 h
          exact ⟨[], [], t, .nil, by simpa [isSymbol] using hclose, rfl, rfl⟩
        · simp only [yields_andThen, yields_widen] at h
          obtain ⟨⟨name, span⟩, mid, hkey, colon, tail, hcolon, value, past, hvalue, h⟩ := h
          obtain ⟨key, hmid, hk, -⟩ := yields_takeName.1 hkey
          obtain ⟨rfl, hc⟩ := yields_takeSymbol.1 hcolon
          obtain ⟨rfl, -⟩ := yields_take.1 hvalue
          obtain ⟨comma, hcomma, hpast⟩ := exists_optionalComma past
          have hlt : (skipComma past).length < (t :: after).length := by
            have := length_skipComma_le past
            have := congrArg List.length hmid
            simp only [List.length_cons] at this ⊢
            omega
          obtain ⟨body, entries, closing, hbody, hclosing, hrest, rfl⟩ := ih _ hlt h rfl
          refine ⟨_, _, closing, .property hk hc trivial hcomma hbody, hclosing, ?_, rfl⟩
          rw [hmid, hpast, hrest]
          simp
  · rintro ⟨body, entries, closing, hbody, hclosing, rfl, rfl⟩
    induction hbody generalizing found with
    | nil =>
      rw [List.nil_append, entityProperties, if_pos (by simp [isSymbol, hclosing])]
      exact yields_token.2 ⟨rfl, rfl⟩
    | @property key colon value name comma more entries named parted _ spaced hmore ih =>
      have hskip : skipComma (comma ++ (more ++ closing :: rest)) = more ++ closing :: rest :=
        skipComma_append spaced fun _ _ heq => hmore.ne_comma hclosing heq
      rw [List.cons_append, entityProperties, if_neg (by simp [isSymbol, named])]
      simp only [yields_andThen, yields_widen]
      refine ⟨(name, key.span), colon :: value :: (comma ++ more ++ closing :: rest),
        yields_takeName.2 ⟨key, rfl, named, rfl⟩, colon,
        value :: (comma ++ more ++ closing :: rest),
        yields_takeSymbol.2 ⟨rfl, parted⟩, value, comma ++ more ++ closing :: rest,
        yields_take.2 ⟨rfl, rfl⟩, ?_⟩
      rw [List.append_assoc, hskip]
      exact ih

/-! ## What the readers of forms take -/

/-- The reader of what follows `universe` takes the rest of a form. -/
theorem yields_cosmosForm (hk : word.kind = .name "universe") :
    Yields (cosmosForm ts) i rest ↔ ∃ run, Form .accepted (word :: run) i ∧ ts = run ++ rest := by
  simp only [cosmosForm, yields_andThen, yields_map, yields_cosmosProperties]
  constructor
  · rintro ⟨⟨name, span⟩, mid, hname, opening, tail, hopening, _, hbody, rfl⟩
    obtain ⟨label, rfl, hlabel, -⟩ := yields_takeName.1 hname
    obtain ⟨rfl, hopen⟩ := yields_takeSymbol.1 hopening
    obtain ⟨body, entries, closing, hbody, hclosing, rfl, rfl⟩ := hbody
    exact ⟨_, .cosmos hk hlabel hopen hbody hclosing, by simp⟩
  · rintro ⟨run, hform, rfl⟩
    cases hform with
    | cosmos led named opened inside closed =>
      exact ⟨(_, _), _, yields_takeName.2 ⟨_, rfl, named, rfl⟩, _, _,
        yields_takeSymbol.2 ⟨rfl, opened⟩, _, ⟨_, _, _, inside, closed, by simp, rfl⟩, rfl⟩
    | entity led | manifest led | flow led | observe led => simp [hk] at led

/-- The reader of what follows `entity` takes the rest of a form. -/
theorem yields_entityForm (hk : word.kind = .name "entity") :
    Yields (entityForm ts) i rest ↔ ∃ run, Form .accepted (word :: run) i ∧ ts = run ++ rest := by
  simp only [entityForm, yields_andThen, yields_map, yields_entityProperties]
  constructor
  · rintro ⟨⟨name, span⟩, mid, hname, opening, tail, hopening, _, hbody, rfl⟩
    obtain ⟨label, rfl, hlabel, -⟩ := yields_takeName.1 hname
    obtain ⟨rfl, hopen⟩ := yields_takeSymbol.1 hopening
    obtain ⟨body, entries, closing, hbody, hclosing, rfl, rfl⟩ := hbody
    exact ⟨_, .entity hk hlabel hopen hbody hclosing, by simp⟩
  · rintro ⟨run, hform, rfl⟩
    cases hform with
    | entity led named opened inside closed =>
      exact ⟨(_, _), _, yields_takeName.2 ⟨_, rfl, named, rfl⟩, _, _,
        yields_takeSymbol.2 ⟨rfl, opened⟩, _, ⟨_, _, _, inside, closed, by simp, rfl⟩, rfl⟩
    | cosmos led | manifest led | flow led | observe led => simp [hk] at led

/-- The reader of what follows `manifest` takes the rest of a form. -/
theorem yields_manifestForm (hk : word.kind = .name "manifest") :
    Yields (manifestForm ts) i rest ↔ ∃ run, Form .accepted (word :: run) i ∧ ts = run ++ rest := by
  simp only [manifestForm, yields_andThen, yields_map]
  constructor
  · rintro ⟨⟨place, span⟩, mid, hplace, joint, tail, hjoint, ⟨visitor, span'⟩, hvisitor, rfl⟩
    obtain ⟨host, rfl, hhost, -⟩ := yields_takeName.1 hplace
    obtain ⟨rfl, hwith⟩ := yields_take.1 hjoint
    obtain ⟨guest, rfl, hguest, -⟩ := yields_takeName.1 hvisitor
    exact ⟨_, .manifest hk hhost (by simpa [isWord] using hwith) hguest, rfl⟩
  · rintro ⟨run, hform, rfl⟩
    cases hform with
    | manifest led placed joined hosted =>
      exact ⟨(_, _), _, yields_takeName.2 ⟨_, rfl, placed, rfl⟩, _, _,
        yields_take.2 ⟨rfl, by simp [isWord, joined]⟩, (_, _),
        yields_takeName.2 ⟨_, rfl, hosted, rfl⟩, rfl⟩
    | cosmos led | entity led | flow led | observe led => simp [hk] at led

/-- The reader of what follows `flow` takes the rest of a form. -/
theorem yields_flowForm (hk : word.kind = .name "flow") :
    Yields (flowForm ts) i rest ↔ ∃ run, Form .accepted (word :: run) i ∧ ts = run ++ rest := by
  simp only [flowForm, yields_andThen, yields_map]
  constructor
  · rintro ⟨⟨name, span⟩, mid, hname, direction, hdirection, rfl⟩
    obtain ⟨time, rfl, htime, -⟩ := yields_takeName.1 hname
    obtain ⟨rfl, -⟩ := yields_take.1 hdirection
    exact ⟨_, .flow hk ⟨name, htime⟩, rfl⟩
  · rintro ⟨run, hform, rfl⟩
    cases hform with
    | flow led timed =>
      obtain ⟨name, htime⟩ := timed
      exact ⟨(_, _), _, yields_takeName.2 ⟨_, rfl, htime, rfl⟩, _, yields_take.2 ⟨rfl, rfl⟩, rfl⟩
    | cosmos led | entity led | manifest led | observe led => simp [hk] at led

/-- The reader of what follows `observe` takes the rest of a form. -/
theorem yields_observeForm (hk : word.kind = .name "observe") :
    Yields (observeForm ts) i rest ↔ ∃ run, Form .accepted (word :: run) i ∧ ts = run ++ rest := by
  simp only [observeForm, yields_map]
  constructor
  · rintro ⟨⟨name, span⟩, hname, rfl⟩
    obtain ⟨target, rfl, htarget, -⟩ := yields_takeName.1 hname
    exact ⟨_, .observe hk htarget, rfl⟩
  · rintro ⟨run, hform, rfl⟩
    cases hform with
    | observe led named => exact ⟨(_, _), yields_takeName.2 ⟨_, rfl, named, rfl⟩, rfl⟩
    | cosmos led | entity led | manifest led | flow led => simp [hk] at led

/-- The reader of the form that a word leads takes the rest of a form, as the accepted rule has it.
-/
theorem yields_form {form : (ts : List Token) → Reading Instruction ts}
    (h : form? word = some form) :
    Yields (form ts) i rest ↔ ∃ run, Form .accepted (word :: run) i ∧ ts = run ++ rest := by
  unfold form? at h
  split at h
  · cases h; exact yields_cosmosForm ‹_›
  · cases h; exact yields_entityForm ‹_›
  · cases h; exact yields_manifestForm ‹_›
  · cases h; exact yields_flowForm ‹_›
  · cases h; exact yields_observeForm ‹_›
  · cases h

/-! ## Accepted and documented forms -/

/-- No brace closes anything before the end of a run. -/
def ClosesOnce (run : List Token) : Prop :=
  ∀ t ∈ run.dropLast, t.kind ≠ .symbol .closeBrace

/-- If a run lets something flow, that is time. -/
def TimeFlows (run : List Token) (i : Instruction) : Prop :=
  ∀ direction, i = .flowTime direction → ∃ t, run[1]? = some t ∧ t.kind = .name "time"

/-- A run that ends in a brace closes once if no brace closes its body. -/
theorem closesOnce_concat {closing : Token} :
    ClosesOnce (run ++ [closing]) ↔ ∀ t ∈ run, t.kind ≠ .symbol .closeBrace := by
  rw [ClosesOnce, List.dropLast_concat]

/-- No brace closes the body of a universe. -/
theorem CosmosBody.inside {body : List Token} (h : CosmosBody body entries) :
    ∀ t ∈ body, t.kind ≠ .symbol .closeBrace := by
  induction h with
  | nil => nofun
  | property named parted plain more ih =>
    simp only [List.forall_mem_cons, List.forall_mem_append, named, parted]
    exact ⟨nofun, nofun, plain.inside, ih⟩

/-- The body of an entity is one with other values too, if those in it fit. -/
theorem EntityBody.imp {fits fits' : Token → Prop} {body : List Token}
    (h : EntityBody fits body entries) (himp : ∀ t ∈ body, fits t → fits' t) :
    EntityBody fits' body entries := by
  induction h with
  | nil => exact .nil
  | property named parted valued spaced more ih =>
    simp only [List.forall_mem_cons, List.forall_mem_append] at himp
    exact .property named parted (himp.2.2.1 valued) spaced (ih himp.2.2.2.2)

/-- If no value closes the body of an entity, no brace does. -/
theorem EntityBody.inside {body : List Token}
    (h : EntityBody Rule.documented.entityValue body entries) :
    ∀ t ∈ body, t.kind ≠ .symbol .closeBrace := by
  induction h with
  | nil => nofun
  | property named parted valued spaced more ih =>
    simp only [List.forall_mem_cons, List.forall_mem_append, named, parted]
    refine ⟨nofun, nofun, valued, ?_, ih⟩
    rcases spaced with rfl | ⟨comma, hcomma, rfl⟩
    · nofun
    · simp [hcomma]

/-- A documented form is accepted. -/
theorem Form.accepted (h : Form .documented run i) : Form .accepted run i := by
  cases h with
  | cosmos led named opened inside closed => exact .cosmos led named opened inside closed
  | entity led named opened inside closed =>
    exact .entity led named opened (inside.imp fun _ _ _ => trivial) closed
  | manifest led placed joined hosted => exact .manifest led placed joined hosted
  | flow led timed => exact .flow led ⟨_, timed⟩
  | observe led named => exact .observe led named

/-- The words of a form and its braces close nothing before a body that is not closed. -/
theorem closesOnce_braces {label opening closing : Token} {body : List Token} {lead name : String}
    (hword : word.kind = .name lead) (hlabel : label.kind = .name name)
    (hopening : opening.kind = .symbol .openBrace) :
    ClosesOnce (word :: label :: opening :: (body ++ [closing])) ↔
      ∀ t ∈ body, t.kind ≠ .symbol .closeBrace := by
  rw [← List.cons_append, ← List.cons_append, ← List.cons_append, closesOnce_concat]
  simp [hword, hlabel, hopening]

/-- An accepted form is documented exactly when no brace closes anything before its end and nothing
flows but time. -/
theorem Form.documented_iff (h : Form .accepted run i) :
    Form .documented run i ↔ ClosesOnce run ∧ TimeFlows run i := by
  constructor
  · intro hform
    cases hform with
    | cosmos led named opened inside closed =>
      exact ⟨(closesOnce_braces led named opened).2 inside.inside, nofun⟩
    | entity led named opened inside closed =>
      exact ⟨(closesOnce_braces led named opened).2 inside.inside, nofun⟩
    | manifest led placed joined hosted =>
      exact ⟨by simp [ClosesOnce, led, placed, joined], nofun⟩
    | @flow word time direction led timed =>
      have htime : time.kind = .name "time" := timed
      exact ⟨by simp [ClosesOnce, led, htime], fun _ _ => ⟨time, rfl, timed⟩⟩
    | observe led named => exact ⟨by simp [ClosesOnce, led], nofun⟩
  · rintro ⟨hcloses, hflows⟩
    cases h with
    | cosmos led named opened inside closed => exact .cosmos led named opened inside closed
    | entity led named opened inside closed =>
      have hbody := (closesOnce_braces led named opened).1 hcloses
      exact .entity led named opened (inside.imp fun t ht _ => hbody t ht) closed
    | manifest led placed joined hosted => exact .manifest led placed joined hosted
    | flow led timed =>
      obtain ⟨time, htime, hword⟩ := hflows _ rfl
      cases htime
      exact .flow led hword
    | observe led named => exact .observe led named

end Creation

end QuantumScript
