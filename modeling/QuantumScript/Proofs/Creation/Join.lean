import QuantumScript.Proofs.Creation.Parts
import QuantumScript.Proofs.Token.Join

/-!
# Creation files joined by a line end

The forms of a creation file are read from the kinds of its tokens, and the texts in them from their
lexemes; places have no part in it. So tokens that stand elsewhere give the same instructions, or
the same cause of a fault (`forms_sameWords`). A file that is lowered consists of whole parts, and
behind them reading starts anew: two files joined by a line end are lowered to the instructions of
the first and those of the second, and fail as the second does (`lower_join`).
-/

namespace QuantumScript.Creation

open Token Reading

variable {ts us : List Token} {t u : Token} {found : Properties} {i : Instruction}
  {entries : List (String × Json)}

/-! ## Where reading gets stuck is told by the kinds -/

/-- Whether a property starts is told by the kinds. -/
theorem startsProperty_congr (h : SameKinds ts us) : startsProperty ts = startsProperty us := by
  have hstart {ts us : List Token} (h : SameKinds ts us) (hts : startsProperty ts = true) :
      startsProperty us = true := by
    obtain ⟨key, colon, name, after, rfl, hkey, hcolon⟩ := startsProperty_iff.1 hts
    obtain ⟨key', _, rfl, hk, htail⟩ := h.exists_cons
    obtain ⟨colon', after', rfl, hc, -⟩ := htail.exists_cons
    exact startsProperty_iff.2 ⟨key', colon', name, after', rfl, hk ▸ hkey, hc ▸ hcolon⟩
  exact Bool.eq_iff_iff.2 ⟨hstart h, hstart h.symm⟩

/-- What is left behind the values of a property is told by the kinds. -/
theorem splitValues_sameKinds (h : SameKinds ts us) :
    SameKinds (splitValues ts).2 (splitValues us).2 := by
  induction ts generalizing us with
  | nil =>
    rw [h.eq_nil]
    exact .nil
  | cons t ts ih =>
    obtain ⟨u, us, rfl, hk, hs⟩ := h.exists_cons
    rw [splitValues, splitValues, isSymbol_congr hk, startsProperty_congr h]
    split
    · exact h
    · exact ih hs

/-- What is left behind a comma is told by the kinds. -/
theorem skipComma_sameKinds (h : SameKinds ts us) : SameKinds (skipComma ts) (skipComma us) := by
  cases ts with
  | nil =>
    rw [h.eq_nil]
    exact .nil
  | cons t ts =>
    obtain ⟨u, us, rfl, hk, hs⟩ := h.exists_cons
    rw [skipComma, skipComma, isSymbol_congr hk]
    split
    · exact hs
    · exact h

/-- Two readings get stuck alike, or both go on with tokens of the same kinds. -/
abbrev StuckAlike {α : Type} {a b : Nat} (reading : Except Stuck (Found α a))
    (other : Except Stuck (Found α b)) : Prop :=
  Alike (fun _ _ => True) reading other

/-- The properties of a universe are read to the same token. -/
theorem cosmosProperties_alike (h : SameKinds ts us) (found' : Properties) :
    StuckAlike (cosmosProperties found ts) (cosmosProperties found' us) := by
  -- The induction is on the number of tokens: behind a property stand fewer.
  obtain ⟨n, hn⟩ : ∃ n, ts.length = n := ⟨_, rfl⟩
  induction n using Nat.strongRecOn generalizing ts us found found' with
  | ind n ih =>
    subst hn
    cases ts with
    | nil =>
      rw [h.eq_nil, cosmosProperties, cosmosProperties]
      exact .error .nil
    | cons t ts =>
      obtain ⟨u, us, rfl, hk, hs⟩ := h.exists_cons
      rw [cosmosProperties, cosmosProperties, isSymbol_congr hk]
      split
      · exact alike_token trivial hs
      · refine (alike_takeName _ h).andThen fun key key' rest rest' hlt _ _ hs => ?_
        refine (alike_takeSymbol _ _ hs).andThen fun _ _ rest rest' hlt' _ _ hs => ?_
        have hle := length_splitValues_le rest
        exact (ih _ (by omega) (splitValues_sameKinds hs) _ rfl).widen _ _

/-- The properties of an entity are read to the same token. -/
theorem entityProperties_alike (h : SameKinds ts us) (found' : Properties) :
    StuckAlike (entityProperties found ts) (entityProperties found' us) := by
  obtain ⟨n, hn⟩ : ∃ n, ts.length = n := ⟨_, rfl⟩
  induction n using Nat.strongRecOn generalizing ts us found found' with
  | ind n ih =>
    subst hn
    cases ts with
    | nil =>
      rw [h.eq_nil, entityProperties, entityProperties]
      exact .error .nil
    | cons t ts =>
      obtain ⟨u, us, rfl, hk, hs⟩ := h.exists_cons
      rw [entityProperties, entityProperties, isSymbol_congr hk]
      split
      · exact alike_token trivial hs
      · refine (alike_takeName _ h).andThen fun key key' rest rest' hlt _ _ hs => ?_
        refine (alike_takeSymbol _ _ hs).andThen fun _ _ rest rest' hlt' _ _ hs => ?_
        refine (alike_take _ (fun _ _ _ => rfl) hs).andThen fun _ _ rest rest' hlt'' _ _ hs => ?_
        have hle := length_skipComma_le rest
        exact (ih _ (by omega) (skipComma_sameKinds hs) _ rfl).widen _ _

/-- A form is read to the same token, whichever word leads it. -/
theorem form_alike {form : (ts : List Token) → Reading Instruction ts} (hform : form? t = some form)
    (h : SameKinds ts us) : StuckAlike (form ts) (form us) := by
  unfold form? at hform
  split at hform
  · cases hform
    refine (alike_takeName _ h).andThen fun _ _ _ _ _ _ _ hs => ?_
    refine (alike_takeSymbol _ _ hs).andThen fun _ _ _ _ _ _ _ hs => ?_
    exact (cosmosProperties_alike hs _).map fun _ _ _ => trivial
  · cases hform
    refine (alike_takeName _ h).andThen fun _ _ _ _ _ _ _ hs => ?_
    refine (alike_takeSymbol _ _ hs).andThen fun _ _ _ _ _ _ _ hs => ?_
    exact (entityProperties_alike hs _).map fun _ _ _ => trivial
  · cases hform
    have hword (t u : Token) (hk : t.kind = u.kind) : isWord "with" t = isWord "with" u := by
      rw [isWord, isWord, hk]
    refine (alike_takeName _ h).andThen fun _ _ _ _ _ _ _ hs => ?_
    refine (alike_take _ hword hs).andThen fun _ _ _ _ _ _ _ hs => ?_
    exact (alike_takeName _ hs).map fun _ _ _ => trivial
  · cases hform
    refine (alike_takeName _ h).andThen fun _ _ _ _ _ _ _ hs => ?_
    exact (alike_take _ (fun _ _ _ => rfl) hs).map fun _ _ _ => trivial
  · cases hform
    exact (alike_takeName _ h).map fun _ _ _ => trivial
  · cases hform

/-! ## What a form spells is told by kinds and lexemes -/

/-- A token of the same words has the same text. -/
theorem tokenText_congr (hk : t.kind = u.kind) (hl : t.lexeme = u.lexeme) :
    tokenText t = tokenText u := by
  rw [tokenText, tokenText, hk, hl]

/-- A token of the same words stands for the same value. -/
theorem literal_congr (hk : t.kind = u.kind) (hl : t.lexeme = u.lexeme) : literal t = literal u := by
  rw [literal, literal, hk, tokenText_congr hk hl]

/-- Tokens of the same words stand for the same values. -/
theorem literals_congr (h : SameWords ts us) : literals ts = literals us := by
  induction ts generalizing us with
  | nil => rw [h.eq_nil]
  | cons t ts ih =>
    obtain ⟨u, us, rfl, hk, hl, hs⟩ := h.exists_cons
    have hrest := ih hs
    unfold literals at hrest ⊢
    rw [List.filter_cons, List.filter_cons, isSymbol_congr hk]
    split
    · rw [List.map_cons, List.map_cons, literal_congr hk hl, hrest]
    · exact hrest

/-- Values that stand elsewhere are values. -/
theorem Values.moved (h : Values ts) (hs : SameKinds ts us) : Values us where
  inside v hv hclose := by
    obtain ⟨t, ht, hk⟩ := List.mem_map.1 (hs ▸ List.mem_map_of_mem hv)
    exact h.inside t ht (hk.trans hclose)
  plain tail htail := by
    obtain ⟨front, rfl⟩ := htail
    obtain ⟨front', tail', rfl, -, htail'⟩ := List.map_eq_append_iff.1 (hs.trans List.map_append)
    rw [← startsProperty_congr htail']
    exact h.plain tail' (List.suffix_append front' tail')

/-- The properties of a universe that stand elsewhere are the same. -/
theorem CosmosBody.moved (h : CosmosBody ts entries) (hs : SameWords ts us) :
    CosmosBody us entries := by
  induction h generalizing us with
  | nil =>
    rw [hs.eq_nil]
    exact .nil
  | property named parted plain more ih =>
    obtain ⟨key, _, rfl, hkey, -, hs⟩ := hs.exists_cons
    obtain ⟨colon, _, rfl, hcolon, -, hs⟩ := hs.exists_cons
    obtain ⟨values, rest, rfl, hvalues, hrest⟩ := hs.exists_append
    rw [literals_congr hvalues]
    exact .property (hkey ▸ named) (hcolon ▸ parted) (plain.moved hvalues.sameKinds) (ih hrest)

/-- A comma or nothing that stands elsewhere is a comma or nothing. -/
theorem OptionalComma.moved (h : OptionalComma ts) (hs : SameWords ts us) : OptionalComma us := by
  rcases h with rfl | ⟨comma, hcomma, rfl⟩
  · exact .inl hs.eq_nil
  · obtain ⟨comma', _, rfl, hk, -, hs⟩ := hs.exists_cons
    obtain rfl := hs.eq_nil
    exact .inr ⟨comma', hk ▸ hcomma, rfl⟩

/-- The properties of an entity that stand elsewhere are the same. -/
theorem EntityBody.moved (h : EntityBody Rule.accepted.entityValue ts entries)
    (hs : SameWords ts us) : EntityBody Rule.accepted.entityValue us entries := by
  induction h generalizing us with
  | nil =>
    rw [hs.eq_nil]
    exact .nil
  | property named parted valued spaced more ih =>
    obtain ⟨key, _, rfl, hkey, -, hs⟩ := hs.exists_cons
    obtain ⟨colon, _, rfl, hcolon, -, hs⟩ := hs.exists_cons
    obtain ⟨value, _, rfl, hvalue, hlexeme, hs⟩ := hs.exists_cons
    obtain ⟨comma, rest, rfl, hcomma, hrest⟩ := hs.exists_append
    rw [literal_congr hvalue hlexeme]
    exact .property (hkey ▸ named) (hcolon ▸ parted) trivial (spaced.moved hcomma) (ih hrest)

/-- What has the words of a block is a block, with a body of the same words. -/
theorem exists_block {word label opening closing : Token} {body : List Token}
    (h : SameWords (word :: label :: opening :: (body ++ [closing])) us) :
    ∃ (word' label' opening' closing' : Token) (body' : List Token),
      us = word' :: label' :: opening' :: (body' ++ [closing']) ∧ word.kind = word'.kind ∧
      label.kind = label'.kind ∧ opening.kind = opening'.kind ∧ closing.kind = closing'.kind ∧
      SameWords body body' := by
  obtain ⟨word', _, rfl, hword, -, h⟩ := h.exists_cons
  obtain ⟨label', _, rfl, hlabel, -, h⟩ := h.exists_cons
  obtain ⟨opening', _, rfl, hopening, -, h⟩ := h.exists_cons
  obtain ⟨body', _, rfl, hbody, h⟩ := h.exists_append
  obtain ⟨closing', _, rfl, hclosing, -, h⟩ := h.exists_cons
  obtain rfl := h.eq_nil
  exact ⟨word', label', opening', closing', body', rfl, hword, hlabel, hopening, hclosing, hbody⟩

/-- A form that stands elsewhere spells the same instruction. -/
theorem Form.moved (h : Form .accepted ts i) (hs : SameWords ts us) : Form .accepted us i := by
  cases h with
  | cosmos led named opened inside closed =>
    obtain ⟨_, _, _, _, _, rfl, hword, hlabel, hopening, hclosing, hbody⟩ := exists_block hs
    exact .cosmos (hword ▸ led) (hlabel ▸ named) (hopening ▸ opened) (inside.moved hbody)
      (hclosing ▸ closed)
  | entity led named opened inside closed =>
    obtain ⟨_, _, _, _, _, rfl, hword, hlabel, hopening, hclosing, hbody⟩ := exists_block hs
    exact .entity (hword ▸ led) (hlabel ▸ named) (hopening ▸ opened) (inside.moved hbody)
      (hclosing ▸ closed)
  | manifest led placed joined hosted =>
    obtain ⟨_, _, rfl, hword, -, hs⟩ := hs.exists_cons
    obtain ⟨_, _, rfl, hhost, -, hs⟩ := hs.exists_cons
    obtain ⟨_, _, rfl, hjoint, -, hs⟩ := hs.exists_cons
    obtain ⟨_, _, rfl, hguest, -, hs⟩ := hs.exists_cons
    obtain rfl := hs.eq_nil
    exact .manifest (hword ▸ led) (hhost ▸ placed) (hjoint ▸ joined) (hguest ▸ hosted)
  | flow led timed =>
    obtain ⟨_, _, rfl, hword, -, hs⟩ := hs.exists_cons
    obtain ⟨_, _, rfl, htime, -, hs⟩ := hs.exists_cons
    obtain ⟨_, _, rfl, hdirection, hlexeme, hs⟩ := hs.exists_cons
    obtain rfl := hs.eq_nil
    obtain ⟨name, hname⟩ := timed
    rw [tokenText_congr hdirection hlexeme]
    exact .flow (hword ▸ led) ⟨name, htime ▸ hname⟩
  | observe led named =>
    obtain ⟨_, _, rfl, hword, -, hs⟩ := hs.exists_cons
    obtain ⟨_, _, rfl, htarget, -, hs⟩ := hs.exists_cons
    obtain rfl := hs.eq_nil
    exact .observe (hword ▸ led) (htarget ▸ named)

/-! ## All forms -/

/-- A word of the same kind leads the same form. -/
theorem form?_congr (h : t.kind = u.kind) : form? t = form? u := by
  rw [form?, form?, h]

/-- Readings that get stuck alike are stuck for the same cause, or both yield something and leave as
many tokens. -/
theorem StuckAlike.cases {α : Type} {a b : Nat} {reading : Except Stuck (Found α a)}
    {other : Except Stuck (Found α b)} (h : StuckAlike reading other) :
    (∃ stuck stuck', reading = .error stuck ∧ other = .error stuck' ∧
      stuck.cause = stuck'.cause) ∨
    ∃ x y rest rest', Yields reading x rest ∧ Yields other y rest' ∧
      rest.length = rest'.length := by
  cases h with
  | error left => exact .inl ⟨_, _, rfl, rfl, Stuck.cause_sameKinds left⟩
  | ok _ left =>
    have hlength := congrArg List.length left
    rw [List.length_map, List.length_map] at hlength
    exact .inr ⟨_, _, _, _, ⟨_, rfl⟩, ⟨_, rfl⟩, hlength⟩

/-- A form that stands elsewhere is read as the same instruction with the same words left, or reading
it fails for the same cause. -/
theorem form_sameWords {form : (ts : List Token) → Reading Instruction ts}
    (hform : form? t = some form) (h : SameWords (t :: ts) (u :: us)) :
    (∃ stuck stuck', form ts = .error stuck ∧ form us = .error stuck' ∧
      stuck.cause = stuck'.cause) ∨
    ∃ i rest rest', Yields (form ts) i rest ∧ Yields (form us) i rest' ∧ SameWords rest rest' := by
  obtain ⟨hk, hkinds⟩ := List.cons.inj h.sameKinds
  rcases (form_alike hform hkinds).cases with hstuck | ⟨i, i', rest, rest', hi, hi', hlength⟩
  · exact .inl hstuck
  · obtain ⟨run, hrun, rfl⟩ := (yields_form hform).1 hi
    obtain ⟨run', hrun', rfl⟩ := (yields_form (form?_congr hk ▸ hform)).1 hi'
    -- As many tokens are left of both, so the words of the two forms are the same.
    have hsplit : SameWords (t :: run ++ rest) (u :: run' ++ rest') := h
    obtain ⟨front, back, heq, hfront, hback⟩ := hsplit.exists_append
    have hleft : back.length = rest.length := by
      have hlengths := congrArg List.length hback
      rw [List.length_map, List.length_map] at hlengths
      exact hlengths.symm
    obtain ⟨rfl, rfl⟩ := List.append_inj' heq (hlength.symm.trans hleft.symm)
    have hsame : u :: run' ++ rest' = u :: run' ++ rest' := rfl
    obtain ⟨-, rfl, -⟩ := (hrun.moved hfront).unique hrun' hsame
    exact .inr ⟨i, rest, rest', hi, hi', hback⟩

/-- Tokens that stand elsewhere give the same instructions, or reading them fails for the same
cause. -/
theorem forms_sameWords (h : SameWords ts us) :
    (∃ instructions, forms ts = .ok instructions ∧ forms us = .ok instructions) ∨
    ∃ stuck stuck', forms ts = .error stuck ∧ forms us = .error stuck' ∧
      stuck.cause = stuck'.cause := by
  -- The induction is on the number of tokens: behind a part stand fewer.
  induction hn : ts.length using Nat.strongRecOn generalizing ts us with
  | ind n ih =>
    subst hn
    cases ts with
    | nil =>
      rw [h.eq_nil, forms]
      exact .inl ⟨[], rfl, rfl⟩
    | cons t after =>
      obtain ⟨u, after', rfl, hk, -, hs⟩ := h.exists_cons
      rw [forms, forms, ← form?_congr hk]
      cases hform : form? t with
      | none => exact ih _ (Nat.lt_succ_self _) hs rfl
      | some form =>
        dsimp only
        rcases form_sameWords hform h with
          ⟨stuck, stuck', hstuck, hstuck', hcause⟩ | ⟨i, rest, rest', ⟨hlt, hi⟩, ⟨_, hi'⟩, hleft⟩
        · rw [hstuck, hstuck']
          exact .inr ⟨stuck, stuck', rfl, rfl, hcause⟩
        · rw [hi, hi']
          dsimp only
          rcases ih _ (Nat.lt_succ_of_lt hlt) hleft rfl with
            ⟨others, hothers, hothers'⟩ | ⟨stuck, stuck', hstuck, hstuck', hcause⟩
          · rw [hothers, hothers']
            exact .inl ⟨i :: others, rfl, rfl⟩
          · rw [hstuck, hstuck']
            exact .inr ⟨stuck, stuck', rfl, rfl, hcause⟩

/-! ## Source texts -/

/-- A text whose tokens are not lowered fails for the cause that reading them does. -/
theorem lower_eq_error {source : String} {tokens : Tokens} {stuck : Stuck}
    (h : tokenize source = .ok tokens) (hstuck : forms (significant tokens.items) = .error stuck) :
    ∃ fault, lower source = .error fault ∧ fault.cause = stuck.cause := by
  rw [lower_of_tokenize h, hstuck]
  exact ⟨_, rfl, stuck.cause_fault tokens.ending⟩

/-- Tokens without line ends that stand elsewhere are without line ends. -/
theorem significant_sameWords (h : SameWords ts us) :
    SameWords (significant ts) (significant us) := by
  induction ts generalizing us with
  | nil =>
    rw [h.eq_nil]
    rfl
  | cons t ts ih =>
    obtain ⟨u, us, rfl, hk, hl, hs⟩ := h.exists_cons
    have hrest := ih hs
    unfold significant SameWords at hrest ⊢
    rw [List.filter_cons, List.filter_cons, isNewline_congr hk]
    split
    · rw [List.map_cons, List.map_cons, hrest, written, written, hk, hl]
    · exact hrest

/-- A text that is lowered, a line end and a text with tokens are lowered to the instructions of the
first and those of the second, if the second is lowered, and else fail for the cause that it does. -/
theorem lower_join {first second : String} {instructions : List Instruction} {tokens : Tokens}
    (hfirst : lower first = .ok instructions) (hsecond : tokenize second = .ok tokens) :
    ((∃ all, lower (first ++ "\n" ++ second) = .ok all) ↔ ∃ others, lower second = .ok others) ∧
    (∀ others, lower second = .ok others →
      lower (first ++ "\n" ++ second) = .ok (instructions ++ others)) ∧
    ∀ fault, lower second = .error fault →
      ∃ moved, lower (first ++ "\n" ++ second) = .error moved ∧ moved.cause = fault.cause := by
  obtain ⟨before, parts, hbefore, hparts, rfl⟩ := exists_partsOf_of_lower hfirst
  obtain ⟨line, moved, ending, hline, hwords, hjoined⟩ := tokenize_join hbefore hsecond
  have hsplit : significant (before.items ++ line :: moved) =
      parts.flatMap Part.tokens ++ significant moved := by
    rw [← hparts.whole]
    simp [significant, isNewline, hline]
  -- Behind the parts of the first text the forms of the second are read.
  have hforms := forms_append hparts.fit (significant moved)
  rw [← hsplit] at hforms
  rcases forms_sameWords (significant_sameWords hwords) with
    ⟨others, hothers, hmoved⟩ | ⟨stuck, stuck', hstuck, hmoved, hcause⟩
  · have hlower : lower second = .ok others := by rw [lower_of_tokenize hsecond, hothers]
    have hall : lower (first ++ "\n" ++ second) =
        .ok (parts.filterMap Part.instruction? ++ others) := by
      rw [lower_of_tokenize hjoined, hforms, hmoved]
      rfl
    rw [hlower, hall]
    refine ⟨⟨fun _ => ⟨others, rfl⟩, fun _ => ⟨_, rfl⟩⟩, ?_, nofun⟩
    rintro _ ⟨⟩
    rfl
  · obtain ⟨fault, hlower, hfault⟩ := lower_eq_error hsecond hstuck
    rw [hmoved] at hforms
    obtain ⟨fault', hall, hfault'⟩ := lower_eq_error hjoined hforms
    rw [hlower, hall]
    refine ⟨⟨fun ⟨_, h⟩ => (by cases h), fun ⟨_, h⟩ => (by cases h)⟩, nofun, ?_⟩
    rintro _ ⟨⟩
    exact ⟨fault', rfl, hfault'.trans (hcause.symm.trans hfault.symm)⟩

/-- A text that ends in a name, joined to one that starts with a colon, which make no property
together: the second text is read as it is alone, whether or not it is lowered. -/
theorem lower_join_colon :
    lower "universe U \x7b k: x \x7d y" = .ok [.cosmos "U" [("k", .text "x")]] ∧
      lower "universe U \x7b k: x \x7d y\n: observe z" =
        .ok [.cosmos "U" [("k", .text "x")], .observe "z"] ∧
      ∃ moved, lower "universe U \x7b k: x \x7d y\n: observe" = .error moved ∧
        moved.cause = .expectedToken .observedName "EOF" := by
  have hfirst : lower "universe U \x7b k: x \x7d y" = .ok [.cosmos "U" [("k", .text "x")]] := by
    with_unfolding_all rfl
  have hgood : tokenize ": observe z" =
      .ok ⟨[⟨.symbol .colon, ⟨0, 1, 1, 1⟩, ":"⟩, ⟨.name "observe", ⟨2, 9, 1, 3⟩, "observe"⟩,
        ⟨.name "z", ⟨10, 11, 1, 11⟩, "z"⟩], ⟨11, 11, 1, 12⟩⟩ := by
    with_unfolding_all rfl
  have hbad : tokenize ": observe" =
      .ok ⟨[⟨.symbol .colon, ⟨0, 1, 1, 1⟩, ":"⟩, ⟨.name "observe", ⟨2, 9, 1, 3⟩, "observe"⟩],
        ⟨9, 9, 1, 10⟩⟩ := by
    with_unfolding_all rfl
  have hlower : lower ": observe z" = .ok [.observe "z"] := by
    with_unfolding_all rfl
  have hfault : lower ": observe" =
      .error ⟨.expectedToken .observedName "EOF", some ⟨9, 9, 1, 10⟩⟩ := by
    with_unfolding_all rfl
  exact ⟨hfirst, (lower_join hfirst hgood).2.1 _ hlower, (lower_join hfirst hbad).2.2 _ hfault⟩

end QuantumScript.Creation
