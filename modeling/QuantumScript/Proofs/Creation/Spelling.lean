import QuantumScript.Proofs.Creation.Shape

/-!
# Writing instructions down

Instructions are spelled by tokens in the documented forms (`SpellsForms`): the properties stand in
any order, a value is a literal or a bare word, and between two values or two properties there is a
comma or nothing. Whatever tokens spell shaped instructions, they are read as these
(`SpellsForms.forms`), and every list of shaped instructions can be spelled in a source text
(`exists_source`). So lowering recovers what was written, and gives nothing else (`lower_recovers`).
-/

namespace QuantumScript.Creation

open Token Reading

/-! ## Spelling -/

/-- Tokens that spell things one after the other, with a comma or nothing between two of them. -/
inductive Joined {α : Type} (spells : List Token → α → Prop) : List Token → List α → Prop
  /-- Nothing is spelled. -/
  | nil : Joined spells [] []
  /-- The last thing. -/
  | last {ts : List Token} {a : α} (spelled : spells ts a) : Joined spells ts [a]
  /-- A thing with others behind it. -/
  | more {ts comma rest : List Token} {a b : α} {others : List α} (spelled : spells ts a)
    (spaced : OptionalComma comma) (behind : Joined spells rest (b :: others)) :
    Joined spells (ts ++ (comma ++ rest)) (a :: b :: others)

/-- A single token that is no symbol and stands for a value. -/
def SpellsScalar (ts : List Token) (value : Json) : Prop :=
  ∃ t : Token, ts = [t] ∧ (∀ sign, t.kind ≠ .symbol sign) ∧ literal t = value

/-- The value of a property of a universe: no value for nothing, one, or several for an array. -/
def SpellsValues (ts : List Token) (value : Json) : Prop :=
  ∃ items, Joined SpellsScalar ts items ∧ collect items = value

/-- A name, a colon and a value. -/
def SpellsProperty (spells : List Token → Json → Prop) (ts : List Token) (entry : String × Json) :
    Prop :=
  ∃ (key colon : Token) (values : List Token), ts = key :: colon :: values ∧
    key.kind = .name entry.1 ∧ colon.kind = .symbol .colon ∧ spells values entry.2

/-- Properties in any order. -/
def SpellsProperties (spells : List Token → Json → Prop) (ts : List Token)
    (properties : Properties) : Prop :=
  ∃ entries : List (String × Json), entries.Perm properties ∧
    Joined (SpellsProperty spells) ts entries

/-- A word, a name and properties between braces. -/
def SpellsBlock (lead : String) (spells : List Token → Json → Prop) (ts : List Token)
    (name : String) (properties : Properties) : Prop :=
  ∃ (word label opening closing : Token) (body : List Token),
    ts = word :: label :: opening :: (body ++ [closing]) ∧ word.kind = .name lead ∧
      label.kind = .name name ∧ opening.kind = .symbol .openBrace ∧
      closing.kind = .symbol .closeBrace ∧ SpellsProperties spells body properties

/-- Tokens that spell an instruction in its documented form. -/
def SpellsForm (ts : List Token) : Instruction → Prop
  | .cosmos name properties => SpellsBlock "universe" SpellsValues ts name properties
  | .entity name properties => SpellsBlock "entity" SpellsScalar ts name properties
  | .manifest place guest => ts.map Token.kind =
      [.name "manifest", .name place, .name "with", .name guest]
  | .flowTime direction => ∃ word time last : Token, ts = [word, time, last] ∧
      word.kind = .name "flow" ∧ time.kind = .name "time" ∧ tokenText last = direction
  | .observe target => ts.map Token.kind = [.name "observe", .name target]

/-- Tokens that spell instructions one after the other. -/
inductive SpellsForms : List Token → List Instruction → Prop
  /-- Nothing is spelled. -/
  | nil : SpellsForms [] []
  /-- An instruction with others behind it. -/
  | cons {ts rest : List Token} {i : Instruction} {others : List Instruction}
    (spelled : SpellsForm ts i) (behind : SpellsForms rest others) :
    SpellsForms (ts ++ rest) (i :: others)

variable {ts comma : List Token} {entries : List (String × Json)} {i : Instruction}
  {instructions : List Instruction}

/-! ## What is spelled is read -/

/-- Tokens that are no symbols but commas are values. -/
theorem values_of_plain (h : ∀ t ∈ ts, ∀ sign, t.kind = .symbol sign → sign = .comma) :
    Values ts where
  inside t ht hk := by cases h t ht _ hk
  plain tail htail := by
    rw [Bool.eq_false_iff, Ne, startsProperty_iff]
    rintro ⟨key, colon, name, after, rfl, -, hcolon⟩
    have hmem : colon ∈ ts := htail.subset (List.mem_cons_of_mem _ List.mem_cons_self)
    cases h colon hmem _ hcolon

/-- An optional comma holds nothing but a comma. -/
theorem OptionalComma.kind_eq (h : OptionalComma comma) :
    ∀ t ∈ comma, t.kind = .symbol .comma := by
  rcases h with rfl | ⟨t, ht, rfl⟩
  · nofun
  · exact List.forall_mem_singleton.2 ht

/-- A comma stands for no value. -/
theorem OptionalComma.literals (h : OptionalComma comma) : literals comma = [] := by
  rcases h with rfl | ⟨t, ht, rfl⟩
  · rfl
  · simp [Creation.literals, isSymbol, ht]

/-- What tokens stand for is put together from their parts. -/
theorem literals_append (ts rest : List Token) :
    literals (ts ++ rest) = literals ts ++ literals rest := by
  simp [literals]

/-- Values with commas between them are no symbols but commas, and stand for the values. -/
theorem Joined.plain_and_literals {items : List Json} (h : Joined SpellsScalar ts items) :
    (∀ t ∈ ts, ∀ sign, t.kind = .symbol sign → sign = .comma) ∧ literals ts = items := by
  have hone {ts : List Token} {value : Json} (h : SpellsScalar ts value) :
      (∀ t ∈ ts, ∀ sign, t.kind = .symbol sign → sign = .comma) ∧ literals ts = [value] := by
    obtain ⟨t, rfl, ht, rfl⟩ := h
    refine ⟨List.forall_mem_singleton.2 fun sign hsign => absurd hsign (ht sign), ?_⟩
    simp [literals, isSymbol, ht]
  induction h with
  | nil => exact ⟨fun _ ht => absurd ht List.not_mem_nil, rfl⟩
  | last spelled => exact hone spelled
  | more spelled spaced behind ih =>
    obtain ⟨hplain, hliterals⟩ := hone spelled
    refine ⟨List.forall_mem_append.2 ⟨hplain, List.forall_mem_append.2 ⟨?_, ih.1⟩⟩, ?_⟩
    · intro t ht sign hsign
      cases (spaced.kind_eq t ht).symm.trans hsign
      rfl
    · rw [literals_append, literals_append, hliterals, spaced.literals, ih.2]
      rfl

/-- A property of a universe is read with the comma that may follow it. -/
theorem CosmosBody.spelled {entry : String × Json} {rest : List Token}
    (h : SpellsProperty SpellsValues ts entry) (hcomma : OptionalComma comma)
    (hrest : CosmosBody rest entries) : CosmosBody (ts ++ (comma ++ rest)) (entry :: entries) := by
  obtain ⟨key, colon, values, rfl, hkey, hcolon, items, hitems, hvalue⟩ := h
  obtain ⟨hplain, hliterals⟩ := hitems.plain_and_literals
  have hvalues : Values (values ++ comma) := by
    refine values_of_plain (List.forall_mem_append.2 ⟨hplain, fun t ht sign hsign => ?_⟩)
    cases (hcomma.kind_eq t ht).symm.trans hsign
    rfl
  have hbody := CosmosBody.property hkey hcolon hvalues hrest
  rw [literals_append, hliterals, hcomma.literals, List.append_nil, hvalue,
    List.append_assoc] at hbody
  exact hbody

/-- The properties of a universe are read as they are spelled. -/
theorem Joined.cosmosBody (h : Joined (SpellsProperty SpellsValues) ts entries) :
    CosmosBody ts entries := by
  induction h with
  | nil => exact .nil
  | @last ts entry spelled =>
    have hbody := CosmosBody.spelled spelled (.inl rfl) .nil
    rwa [List.append_nil, List.append_nil] at hbody
  | more spelled spaced behind ih => exact .spelled spelled spaced ih

/-- A property of an entity is read with the comma that may follow it. -/
theorem EntityBody.spelled {entry : String × Json} {rest : List Token}
    (h : SpellsProperty SpellsScalar ts entry) (hcomma : OptionalComma comma)
    (hrest : EntityBody Rule.documented.entityValue rest entries) :
    EntityBody Rule.documented.entityValue (ts ++ (comma ++ rest)) (entry :: entries) := by
  obtain ⟨key, colon, values, rfl, hkey, hcolon, value, rfl, hsign, hvalue⟩ := h
  have hbody := EntityBody.property hkey hcolon (hsign .closeBrace) hcomma hrest
  rw [hvalue] at hbody
  exact hbody

/-- The properties of an entity are read as they are spelled. -/
theorem Joined.entityBody (h : Joined (SpellsProperty SpellsScalar) ts entries) :
    EntityBody Rule.documented.entityValue ts entries := by
  induction h with
  | nil => exact .nil
  | @last ts entry spelled =>
    have hbody := EntityBody.spelled spelled (.inl rfl) .nil
    rwa [List.append_nil, List.append_nil] at hbody
  | more spelled spaced behind ih => exact .spelled spelled spaced ih

/-- Tokens that spell a shaped instruction are a documented form of it. -/
theorem SpellsForm.form (h : SpellsForm ts i) (hshaped : i.Shaped) : Form .documented ts i := by
  cases i with
  | cosmos name properties =>
    obtain ⟨_, _, _, _, _, rfl, hword, hlabel, hopening, hclosing, entries, hperm, hbody⟩ := h
    rw [← hshaped.2.ascending.putAll_of_perm hperm]
    exact .cosmos hword hlabel hopening hbody.cosmosBody hclosing
  | entity name properties =>
    obtain ⟨_, _, _, _, _, rfl, hword, hlabel, hopening, hclosing, entries, hperm, hbody⟩ := h
    rw [← hshaped.2.ascending.putAll_of_perm hperm]
    exact .entity hword hlabel hopening hbody.entityBody hclosing
  | manifest place guest =>
    simp only [SpellsForm, List.map_eq_cons_iff, List.map_eq_nil_iff] at h
    obtain ⟨_, _, rfl, hword, _, _, rfl, hplace, _, _, rfl, hwith, _, _, rfl, hguest, rfl⟩ := h
    exact .manifest hword hplace hwith hguest
  | flowTime direction =>
    obtain ⟨_, _, _, rfl, hword, htime, rfl⟩ := h
    exact .flow hword htime
  | observe target =>
    simp only [SpellsForm, List.map_eq_cons_iff, List.map_eq_nil_iff] at h
    obtain ⟨_, _, rfl, hword, _, _, rfl, htarget, rfl⟩ := h
    exact .observe hword htarget

/-- Tokens that spell shaped instructions are read as these. -/
theorem SpellsForms.forms (h : SpellsForms ts instructions)
    (hshaped : ∀ i ∈ instructions, i.Shaped) : Creation.forms ts = .ok instructions := by
  induction h with
  | nil => rw [Creation.forms]
  | cons spelled behind ih =>
    obtain ⟨hfirst, hothers⟩ := List.forall_mem_cons.1 hshaped
    rw [forms_form (spelled.form hfirst).accepted, ih hothers]
    rfl

/-! ## What is shaped can be spelled -/

/-- Something can be written: all tokens of some lexical kinds spell it. -/
def Writable {α : Type} (spells : List Token → α → Prop) (a : α) : Prop :=
  ∃ kinds : List Kind, (∀ kind ∈ kinds, kind.Lexical ∧ kind ≠ .newline) ∧
    ∀ ts : List Token, ts.map Token.kind = kinds → spells ts a

/-- A scalar can be written. -/
theorem Writable.scalar {value : Json} (h : value.Scalar) : Writable SpellsScalar value := by
  have hone (kind : Kind) (hlexical : kind.Lexical) (hline : kind ≠ .newline)
      (hsign : ∀ sign, kind ≠ .symbol sign)
      (hvalue : ∀ t : Token, t.kind = kind → literal t = value) :
      Writable SpellsScalar value := by
    refine ⟨[kind], List.forall_mem_singleton.2 ⟨hlexical, hline⟩, fun ts hts => ?_⟩
    obtain ⟨t, rfl, rfl⟩ := List.map_eq_singleton_iff.1 hts
    exact ⟨t, rfl, hsign, hvalue t rfl⟩
  cases h with
  | null =>
    exact hone (.keyword .null) trivial (by simp) (by simp) fun t ht => by simp [literal, ht]
  | bool value =>
    cases value with
    | true =>
      exact hone (.keyword .yes) trivial (by simp) (by simp) fun t ht => by simp [literal, ht]
    | false =>
      exact hone (.keyword .no) trivial (by simp) (by simp) fun t ht => by simp [literal, ht]
  | text value =>
    exact hone (.text value) trivial (by simp) (by simp) fun t ht => by
      simp [literal, ht, tokenText]
  | @number n numeral =>
    exact hone (.number n) numeral (by simp) (by simp) fun t ht => literal_number ht

/-- Things that can be written can be written one after the other. -/
theorem Writable.joined {α : Type} {spells : List Token → α → Prop} {items : List α}
    (h : ∀ a ∈ items, Writable spells a) : Writable (Joined spells) items := by
  induction items with
  | nil =>
    refine ⟨[], nofun, fun ts hts => ?_⟩
    obtain rfl := List.map_eq_nil_iff.1 hts
    exact .nil
  | cons a items ih =>
    obtain ⟨⟨kinds, hkinds, hspells⟩, hitems⟩ := List.forall_mem_cons.1 h
    cases items with
    | nil => exact ⟨kinds, hkinds, fun ts hts => .last (hspells ts hts)⟩
    | cons b others =>
      obtain ⟨kinds', hkinds', hspells'⟩ := ih hitems
      refine ⟨kinds ++ kinds', List.forall_mem_append.2 ⟨hkinds, hkinds'⟩, fun ts hts => ?_⟩
      obtain ⟨front, rest, rfl, hfront, hrest⟩ := List.map_eq_append_iff.1 hts
      exact @Joined.more _ _ _ [] _ _ _ _ (hspells front hfront) (.inl rfl) (hspells' rest hrest)

/-- The value of a property of a universe can be written. -/
theorem Writable.values {value : Json} (h : value.ScalarOrArray) : Writable SpellsValues value := by
  have hall (items : List Json) (hitems : ∀ item ∈ items, item.Scalar)
      (hvalue : collect items = value) : Writable SpellsValues value := by
    obtain ⟨kinds, hkinds, hspells⟩ := Writable.joined fun item hitem => .scalar (hitems item hitem)
    exact ⟨kinds, hkinds, fun ts hts => ⟨items, hspells ts hts, hvalue⟩⟩
  rcases h with h | ⟨items, rfl, hlength, hitems⟩
  · exact hall [value] (List.forall_mem_singleton.2 h) rfl
  · refine hall items hitems ?_
    match items, hlength with
    | first :: second :: rest, _ => rfl

/-- Shaped properties can be written if their values can. -/
theorem Writable.properties {fits : Json → Prop} {spells : List Token → Json → Prop}
    {properties : Properties} (h : properties.Shaped fits)
    (hfits : ∀ value, fits value → Writable spells value) :
    Writable (SpellsProperties spells) properties := by
  have hentry (entry : String × Json) (hmem : entry ∈ properties) :
      Writable (SpellsProperty spells) entry := by
    obtain ⟨kinds, hkinds, hspells⟩ := hfits entry.2 (h.valued entry hmem)
    refine ⟨.name entry.1 :: .symbol .colon :: kinds, ?_, fun ts hts => ?_⟩
    · exact List.forall_mem_cons.2
        ⟨⟨h.named entry hmem, nofun⟩, List.forall_mem_cons.2 ⟨⟨trivial, nofun⟩, hkinds⟩⟩
    · obtain ⟨key, _, rfl, hkey, hrest⟩ := List.map_eq_cons_iff.1 hts
      obtain ⟨colon, values, rfl, hcolon, hvalues⟩ := List.map_eq_cons_iff.1 hrest
      exact ⟨key, colon, values, rfl, hkey, hcolon, hspells values hvalues⟩
  obtain ⟨kinds, hkinds, hspells⟩ := Writable.joined hentry
  exact ⟨kinds, hkinds, fun ts hts => ⟨properties, .refl _, hspells ts hts⟩⟩

/-- A block can be written if its properties can. -/
theorem Writable.block {lead name : String} {spells : List Token → Json → Prop}
    {properties : Properties} (hlead : IsIdentifier lead) (hname : IsIdentifier name)
    (h : Writable (SpellsProperties spells) properties) :
    Writable (fun ts properties => SpellsBlock lead spells ts name properties) properties := by
  obtain ⟨kinds, hkinds, hspells⟩ := h
  refine ⟨.name lead :: .name name :: .symbol .openBrace :: (kinds ++ [.symbol .closeBrace]), ?_,
    fun ts hts => ?_⟩
  · simp only [List.forall_mem_cons, List.forall_mem_append]
    exact ⟨⟨hlead, nofun⟩, ⟨hname, nofun⟩, ⟨trivial, nofun⟩, hkinds, ⟨trivial, nofun⟩, nofun⟩
  · obtain ⟨word, _, rfl, hword, hts⟩ := List.map_eq_cons_iff.1 hts
    obtain ⟨label, _, rfl, hlabel, hts⟩ := List.map_eq_cons_iff.1 hts
    obtain ⟨opening, _, rfl, hopening, hts⟩ := List.map_eq_cons_iff.1 hts
    obtain ⟨body, _, rfl, hbody, hts⟩ := List.map_eq_append_iff.1 hts
    obtain ⟨closing, rfl, hclosing⟩ := List.map_eq_singleton_iff.1 hts
    exact ⟨word, label, opening, closing, body, rfl, hword, hlabel, hopening, hclosing,
      hspells body hbody⟩

/-- The words of the forms are identifiers. -/
theorem isIdentifier_words {word : String}
    (h : word ∈ ["universe", "entity", "manifest", "with", "flow", "time", "observe"]) :
    IsIdentifier word := by
  simp only [List.mem_cons, List.not_mem_nil, or_false] at h
  rcases h with rfl | rfl | rfl | rfl | rfl | rfl | rfl
  all_goals exact ⟨⟨_, _, rfl, by decide⟩, List.all_eq_true.1 (by decide), by decide⟩

/-- A shaped instruction can be written. -/
theorem Writable.form (h : i.Shaped) : Writable SpellsForm i := by
  cases i with
  | cosmos name properties =>
    exact Writable.block (isIdentifier_words (by simp)) h.1 (.properties h.2 fun _ => .values)
  | entity name properties =>
    exact Writable.block (isIdentifier_words (by simp)) h.1 (.properties h.2 fun _ => .scalar)
  | manifest place guest =>
    refine ⟨_, ?_, fun ts hts => hts⟩
    simp only [List.forall_mem_cons]
    exact ⟨⟨isIdentifier_words (by simp), nofun⟩, ⟨h.1, nofun⟩,
      ⟨isIdentifier_words (by simp), nofun⟩, ⟨h.2, nofun⟩, nofun⟩
  | flowTime direction =>
    refine ⟨[.name "flow", .name "time", .text direction], ?_, fun ts hts => ?_⟩
    · simp only [List.forall_mem_cons]
      exact ⟨⟨isIdentifier_words (by simp), nofun⟩, ⟨isIdentifier_words (by simp), nofun⟩,
        ⟨trivial, nofun⟩, nofun⟩
    · simp only [List.map_eq_cons_iff, List.map_eq_nil_iff] at hts
      obtain ⟨word, _, rfl, hword, time, _, rfl, htime, last, _, rfl, hlast, rfl⟩ := hts
      exact ⟨word, time, last, rfl, hword, htime, by simp [tokenText, hlast]⟩
  | observe target =>
    refine ⟨_, ?_, fun ts hts => hts⟩
    simp only [List.forall_mem_cons]
    exact ⟨⟨isIdentifier_words (by simp), nofun⟩, ⟨h, nofun⟩, nofun⟩

/-- Shaped instructions can be written. -/
theorem Writable.forms (h : ∀ i ∈ instructions, i.Shaped) : Writable SpellsForms instructions := by
  induction instructions with
  | nil =>
    refine ⟨[], nofun, fun ts hts => ?_⟩
    obtain rfl := List.map_eq_nil_iff.1 hts
    exact .nil
  | cons i instructions ih =>
    obtain ⟨hfirst, hothers⟩ := List.forall_mem_cons.1 h
    obtain ⟨kinds, hkinds, hspells⟩ := Writable.form hfirst
    obtain ⟨kinds', hkinds', hspells'⟩ := ih hothers
    refine ⟨kinds ++ kinds', List.forall_mem_append.2 ⟨hkinds, hkinds'⟩, fun ts hts => ?_⟩
    obtain ⟨front, rest, rfl, hfront, hrest⟩ := List.map_eq_append_iff.1 hts
    exact .cons (hspells front hfront) (hspells' rest hrest)

/-- Every list of shaped instructions is spelled in a source text. -/
theorem exists_source (h : ∀ i ∈ instructions, i.Shaped) :
    ∃ source tokens, tokenize source = .ok tokens ∧
      SpellsForms (significant tokens.items) instructions := by
  obtain ⟨kinds, hkinds, hspells⟩ := Writable.forms h
  obtain ⟨source, tokens, htokens, rfl⟩ := exists_tokenize fun kind hkind => (hkinds kind hkind).1
  have hsignificant : significant tokens.items = tokens.items := by
    refine List.filter_eq_self.2 fun t ht => ?_
    have hline := (hkinds t.kind (List.mem_map_of_mem ht)).2
    simpa [isNewline] using hline
  exact ⟨source, tokens, htokens, by rw [hsignificant]; exact hspells _ rfl⟩

/-! ## Source texts -/

/-- Lowering recovers what was written: whatever tokens spell shaped instructions, with line ends
anywhere, they are read as exactly these instructions, and so is every text with such tokens; there
is such a text for every list of shaped instructions. Nothing but shaped instructions is ever
lowered to. -/
theorem lower_recovers :
    (∀ instructions : List Instruction, (∀ i ∈ instructions, i.Shaped) →
      (∀ ts, SpellsForms (significant ts) instructions →
        forms (significant ts) = .ok instructions) ∧
      (∀ source tokens, tokenize source = .ok tokens →
        SpellsForms (significant tokens.items) instructions → lower source = .ok instructions) ∧
      ∃ source tokens, tokenize source = .ok tokens ∧
        SpellsForms (significant tokens.items) instructions) ∧
    ∀ source instructions, lower source = .ok instructions → ∀ i ∈ instructions, i.Shaped := by
  refine ⟨fun instructions hshaped => ⟨fun ts hts => hts.forms hshaped, ?_, exists_source hshaped⟩,
    fun source instructions h => shaped_of_lower h⟩
  intro source tokens htokens hspells
  rw [lower_of_tokenize htokens, hspells.forms hshaped]

/-- The tokens of `universe U { b: x, y a: }`. -/
def cosmosTokens : Tokens :=
  ⟨[⟨.name "universe", ⟨0, 8, 1, 1⟩, "universe"⟩, ⟨.name "U", ⟨9, 10, 1, 10⟩, "U"⟩,
    ⟨.symbol .openBrace, ⟨11, 12, 1, 12⟩, "\x7b"⟩, ⟨.name "b", ⟨13, 14, 1, 14⟩, "b"⟩,
    ⟨.symbol .colon, ⟨14, 15, 1, 15⟩, ":"⟩, ⟨.name "x", ⟨16, 17, 1, 17⟩, "x"⟩,
    ⟨.symbol .comma, ⟨17, 18, 1, 18⟩, ","⟩, ⟨.name "y", ⟨19, 20, 1, 20⟩, "y"⟩,
    ⟨.name "a", ⟨21, 22, 1, 22⟩, "a"⟩, ⟨.symbol .colon, ⟨22, 23, 1, 23⟩, ":"⟩,
    ⟨.symbol .closeBrace, ⟨24, 25, 1, 25⟩, "\x7d"⟩], ⟨25, 25, 1, 26⟩⟩

/-- A universe with an array and an empty property, out of order, is recovered. -/
theorem lower_recovers_universe :
    lower "universe U \x7b b: x, y a: \x7d" =
      .ok [.cosmos "U" [("a", .null), ("b", .array [.text "x", .text "y"])]] := by
  have htokens : tokenize "universe U \x7b b: x, y a: \x7d" = .ok cosmosTokens := by
    with_unfolding_all rfl
  have hshaped : Instruction.Shaped
      (.cosmos "U" [("a", .null), ("b", .array [.text "x", .text "y"])]) := by
    have hword (word : String) (h : word ∈ ["U", "a", "b"]) : IsIdentifier word := by
      simp only [List.mem_cons, List.not_mem_nil, or_false] at h
      rcases h with rfl | rfl | rfl
      all_goals exact ⟨⟨_, _, rfl, by decide⟩, List.all_eq_true.1 (by decide), by decide⟩
    refine ⟨hword "U" (by simp), List.pairwise_pair.2 (by decide), ?_, ?_⟩
    · simp only [List.forall_mem_cons]
      exact ⟨hword "a" (by simp), hword "b" (by simp), nofun⟩
    · simp only [List.forall_mem_cons]
      refine ⟨.inl .null, .inr ⟨_, rfl, by decide, ?_⟩, nofun⟩
      simp only [List.forall_mem_cons]
      exact ⟨.text "x", .text "y", nofun⟩
  have hspells : SpellsForms (significant cosmosTokens.items)
      [.cosmos "U" [("a", .null), ("b", .array [.text "x", .text "y"])]] := by
    have hb : SpellsProperty SpellsValues ((cosmosTokens.items.drop 3).take 5)
        ("b", .array [.text "x", .text "y"]) := by
      refine ⟨_, _, _, rfl, rfl, rfl, [.text "x", .text "y"], ?_, rfl⟩
      exact @Joined.more _ _ [_] [_] [_] _ _ _ ⟨_, rfl, nofun, rfl⟩ (.inr ⟨_, rfl, rfl⟩)
        (.last ⟨_, rfl, nofun, rfl⟩)
    have ha : SpellsProperty SpellsValues ((cosmosTokens.items.drop 8).take 2) ("a", .null) :=
      ⟨_, _, [], rfl, rfl, rfl, [], .nil, rfl⟩
    have hbody : SpellsProperties SpellsValues ((cosmosTokens.items.drop 3).take 7)
        [("a", .null), ("b", .array [.text "x", .text "y"])] :=
      ⟨_, .swap _ _ _, @Joined.more _ _ _ [] _ _ _ _ hb (.inl rfl) (.last ha)⟩
    exact @SpellsForms.cons (significant cosmosTokens.items) [] _ []
      ⟨_, _, _, _, (cosmosTokens.items.drop 3).take 7, rfl, rfl, rfl, rfl, rfl, hbody⟩ .nil
  exact (lower_recovers.1 _ (List.forall_mem_singleton.2 hshaped)).2.1 _ _ htokens hspells

end QuantumScript.Creation
