import QuantumScript.Proofs.Token.Place
import QuantumScript.Proofs.Token.Written

/-!
# Tokens on their own

What is read as a token depends on the text after it only in where the token ends: if the text is
cut anywhere behind the token, the same token is read (`nextLexeme_cut`). So the lexeme of a token is
read as this token when it stands alone, and no piece of the text that goes on behind it is one
token. The lexemes of a text joined by spaces are read as tokens of the same kinds
(`tokenize_stable`).
-/

namespace QuantumScript

namespace Token

variable {c : Char} {cs kept dropped rest : List Char} {l : Lexeme}

/-! ## One token in a text that is cut behind it -/

/-- What is taken as long as a test holds, and what is left then, are the same when the text is cut
in what is left. -/
theorem takeWhile_cut {test : Char → Bool} (h : cs.dropWhile test = kept ++ dropped) :
    (cs.takeWhile test ++ kept).takeWhile test = cs.takeWhile test ∧
      (cs.takeWhile test ++ kept).dropWhile test = kept := by
  induction cs with
  | nil =>
    obtain ⟨rfl, -⟩ := List.append_eq_nil_iff.1 h.symm
    exact ⟨rfl, rfl⟩
  | cons c cs ih =>
    cases hc : test c with
    | true =>
      rw [List.dropWhile_cons_of_pos hc] at h
      obtain ⟨htake, hdrop⟩ := ih h
      rw [List.takeWhile_cons_of_pos hc, List.cons_append, List.takeWhile_cons_of_pos hc,
        List.dropWhile_cons_of_pos hc, htake, hdrop]
      exact ⟨rfl, rfl⟩
    | false =>
      have hnot : ¬ test c = true := by rw [hc]; exact Bool.false_ne_true
      rw [List.dropWhile_cons_of_neg hnot] at h
      rw [List.takeWhile_cons_of_neg hnot, List.nil_append]
      cases kept with
      | nil => exact ⟨rfl, rfl⟩
      | cons d kept =>
        obtain ⟨rfl, -⟩ := List.cons.inj h
        exact ⟨List.takeWhile_cons_of_neg hnot, List.dropWhile_cons_of_neg hnot⟩

/-- Where no point comes first, none does when the text is cut. -/
theorem not_dot_cut (h : ∀ after, kept ++ dropped = '.' :: after → False) :
    ∀ after, kept = '.' :: after → False := by
  rintro after rfl
  exact h (after ++ dropped) rfl

/-- A string ends at its closing quote, whatever follows. -/
theorem splitString?_cut {quote : Char} {body after : List Char}
    (h : splitString? quote cs = some (body, after)) (kept : List Char) :
    splitString? quote (body ++ quote :: kept) = some (body, kept) := by
  fun_induction splitString? quote cs generalizing body with
  | case1 => cases h
  | case2 =>
    cases h
    cases kept <;> simp [splitString?]
  | case3 => cases h
  | case4 =>
    cases h
    cases kept <;> simp [splitString?]
  | case5 d rest hq ih =>
    obtain ⟨⟨inner, last⟩, hi, heq⟩ := Option.map_eq_some_iff.1 h
    cases heq
    rw [List.cons_append, List.cons_append, splitString?, if_neg hq, if_pos rfl, ih hi]
    rfl
  | case6 c d rest hq hb ih =>
    obtain ⟨⟨inner, last⟩, hi, heq⟩ := Option.map_eq_some_iff.1 h
    cases heq
    obtain ⟨e, more, hmore⟩ : ∃ e more, inner ++ quote :: kept = e :: more := by
      cases inner with
      | nil => exact ⟨_, _, rfl⟩
      | cons e inner => exact ⟨_, _, rfl⟩
    rw [List.cons_append, hmore, splitString?, if_neg hq, if_neg hb, ← hmore, ih hi]
    rfl

/-- A string is read as if the text ended anywhere behind it. -/
theorem stringLexeme_cut {quote : Char} (h : stringLexeme quote cs = .ok l)
    (hcut : l.text ++ kept = quote :: rest) :
    stringLexeme quote rest = .ok { l with rest := kept } := by
  unfold stringLexeme at h
  split at h
  · rename_i body after hsplit
    cases h
    have hrest : rest = body ++ quote :: kept := by
      have htail := congrArg List.tail hcut
      simpa using htail.symm
    rw [stringLexeme, hrest, splitString?_cut hsplit]
  · cases h

/-- A number is read as if the text ended anywhere behind it. -/
theorem numberLexeme_cut (h : numberLexeme cs = .ok l) (hrest : l.rest = kept ++ dropped) :
    numberLexeme (l.text ++ kept) = .ok { l with rest := kept } := by
  unfold numberLexeme at h
  dsimp only at h
  split at h
  · rename_i after hafter
    split at h
    · cases h
    · rename_i hnot
      cases h
      -- The digits before the point end at it, those behind it where the text went on.
      have hwhole : cs.dropWhile Char.isDigit =
          '.' :: (after.takeWhile Char.isDigit ++ kept) ++ dropped := by
        rw [hafter, List.cons_append, List.append_assoc, ← hrest, List.takeWhile_append_dropWhile]
      obtain ⟨htake, hdrop⟩ := takeWhile_cut hwhole
      obtain ⟨htake', hdrop'⟩ := takeWhile_cut hrest
      have htext : cs.takeWhile Char.isDigit ++ '.' :: after.takeWhile Char.isDigit ++ kept =
          cs.takeWhile Char.isDigit ++ '.' :: (after.takeWhile Char.isDigit ++ kept) := by
        rw [List.append_assoc, List.cons_append]
      dsimp only
      rw [htext, numberLexeme, htake, hdrop]
      simp only [htake', hdrop']
      split
      · rename_i tail
        exact (not_dot_cut (fun after heq => hnot after (hrest.trans heq)) tail rfl).elim
      · rfl
  · rename_i hnot
    cases h
    obtain ⟨htake, hdrop⟩ := takeWhile_cut hrest
    dsimp only
    rw [numberLexeme, htake, hdrop]
    dsimp only
    split
    · rename_i tail
      exact (not_dot_cut (fun after heq => hnot after (hrest.trans heq)) tail rfl).elim
    · rfl

/-- A name is read as if the text ended anywhere behind it. -/
theorem wordLexeme_cut (hrest : (wordLexeme cs).rest = kept ++ dropped) :
    wordLexeme ((wordLexeme cs).text ++ kept) = { wordLexeme cs with rest := kept } := by
  obtain ⟨htake, hdrop⟩ := takeWhile_cut hrest
  have htext : (wordLexeme cs).text = cs.takeWhile continuesName := rfl
  rw [htext, wordLexeme, htake, hdrop]
  rfl

/-- The symbol that a text starts with is the same when the text is cut behind it. -/
theorem leading?_cut {sign : Symbol}
    (h : Symbol.leading? (sign.chars ++ (kept ++ dropped)) = some sign) :
    Symbol.leading? (sign.chars ++ kept) = some sign := by
  rw [Symbol.leading?, List.find?_eq_some_iff_append] at h ⊢
  obtain ⟨-, earlier, later, hall, hnone⟩ := h
  have hleads : sign.chars.isPrefixOf (sign.chars ++ kept) = true :=
    List.isPrefixOf_iff_prefix.2 (List.prefix_append _ _)
  refine ⟨hleads, earlier, later, hall, fun other hother => ?_⟩
  -- A longer symbol that the shorter text starts with would start the whole text too.
  have hlonger := hnone other hother
  rw [Bool.not_eq_true', Bool.eq_false_iff] at hlonger ⊢
  intro hshort
  have hstarts : other.chars <+: sign.chars ++ kept := List.isPrefixOf_iff_prefix.1 hshort
  have hwhole : other.chars <+: sign.chars ++ kept ++ dropped :=
    hstarts.trans (List.prefix_append _ _)
  rw [List.append_assoc] at hwhole
  apply hlonger
  exact List.isPrefixOf_iff_prefix.2 hwhole

/-- A symbol is read as if the text ended anywhere behind it. -/
theorem symbolLexeme_cut (h : symbolLexeme c cs = .ok l) (hrest : l.rest = kept ++ dropped)
    (hcut : l.text ++ kept = c :: rest) : symbolLexeme c rest = .ok { l with rest := kept } := by
  have hwhole := symbolLexeme_append h
  unfold symbolLexeme at h
  split at h
  · rename_i sign hsign
    cases h
    rw [← hwhole, hrest] at hsign
    rw [symbolLexeme, ← hcut, leading?_cut hsign]
    dsimp only
    rw [List.drop_left]
  · cases h

/-- A token is read as if the text ended anywhere behind it. -/
theorem nextLexeme_cut (h : nextLexeme c cs = .ok l) (hrest : l.rest = kept ++ dropped)
    (hcut : l.text ++ kept = c :: rest) : nextLexeme c rest = .ok { l with rest := kept } := by
  unfold nextLexeme at *
  -- The first character alone tells which kind of token comes, so both sides take one branch.
  by_cases hn : c = '\n'
  · rw [if_pos hn] at h ⊢
    cases h
    rw [List.cons_append, List.nil_append] at hcut
    rw [(List.cons.inj hcut).2]
  rw [if_neg hn] at h ⊢
  by_cases hq : isQuote c
  · rw [if_pos hq] at h ⊢
    exact stringLexeme_cut h hcut
  rw [if_neg hq] at h ⊢
  by_cases hd : c.isDigit
  · rw [if_pos hd] at h ⊢
    rw [← hcut]
    exact numberLexeme_cut h hrest
  rw [if_neg hd] at h ⊢
  by_cases hs : startsName c
  · rw [if_pos hs] at h ⊢
    cases h
    rw [← hcut, wordLexeme_cut hrest]
  · rw [if_neg hs] at h ⊢
    exact symbolLexeme_cut h hrest hcut

/-! ## The tokens of a text -/

/-- In a text that starts at an offset, a token is what is read where it stands. -/
def ReadIn (offset : Nat) (cs : List Char) (t : Token) : Prop :=
  ∃ before c rest after, cs = before ++ c :: rest ∧ t.span.start = offset + byteSize before ∧
    nextLexeme c rest = .ok ⟨t.kind, t.lexeme.toList, after⟩

/-- The lexeme of a token is read as this token when it stands alone. -/
def Alone (t : Token) : Prop :=
  ∃ c rest, t.lexeme.toList = c :: rest ∧ nextLexeme c rest = .ok ⟨t.kind, t.lexeme.toList, []⟩

/-- The tokens of a text are what is read where they stand. -/
theorem readIn_of_tokenizeFrom (p : Position) (cs : List Char) :
    ∀ tokens, tokenizeFrom p cs = .ok tokens → ∀ t ∈ tokens.items, t.ReadIn p.offset cs := by
  fun_induction tokenizeFrom p cs with
  | case1 =>
    rintro _ ⟨⟩
    exact fun t ht => absurd ht List.not_mem_nil
  | case2 =>
    intro tokens h
    cases h
  | case3 =>
    intro tokens h
    cases h
  | case4 p cs gap c rest hgap start l hl _ stop others hothers token ih =>
    rintro _ ⟨⟩
    have hcs := splitGap_append false cs
    rw [hgap] at hcs
    have hstart : start.offset = p.offset + byteSize gap := (p.past_eq gap).1
    have hstop : stop.offset = start.offset + byteSize l.text := (start.past_eq l.text).1
    refine List.forall_mem_cons.2 ⟨?_, fun t ht => ?_⟩
    · refine ⟨gap, c, rest, l.rest, hcs.symm, hstart, ?_⟩
      rw [hl]
      show Except.ok l = .ok ⟨l.kind, (String.ofList l.text).toList, l.rest⟩
      rw [String.toList_ofList]
    · obtain ⟨before, d, after, behind, hrest, hoffset, hread⟩ := ih others hothers t ht
      refine ⟨gap ++ (l.text ++ before), d, after, behind, ?_, ?_, hread⟩
      · calc cs = gap ++ (c :: rest) := hcs.symm
          _ = gap ++ (l.text ++ l.rest) := by rw [nextLexeme_append hl]
          _ = gap ++ (l.text ++ (before ++ d :: after)) := by rw [hrest]
          _ = gap ++ (l.text ++ before) ++ d :: after := by simp only [List.append_assoc]
      · rw [hoffset, hstop, hstart, byteSize_append, byteSize_append]
        omega

/-- Where a token is read at once, it is the first token of the text. -/
theorem tokenizeFrom_of_nextLexeme {p : Position} (hl : nextLexeme c rest = .ok l) :
    tokenizeFrom p (c :: rest) =
      (tokenizeFrom (p.past l.text) l.rest).map fun tokens =>
        { tokens with items := ⟨l.kind, p.spanTo (p.past l.text), String.ofList l.text⟩ ::
          tokens.items } :=
  tokenizeFrom_of_lexeme (splitGap_of_nextLexeme hl rest) hl

/-- A token and some of the text behind it are read as the token with that text behind it. -/
theorem exists_cut {kind : Kind} {text : List Char}
    (h : nextLexeme c cs = .ok ⟨kind, text, kept ++ dropped⟩) :
    ∃ rest, text ++ kept = c :: rest ∧ nextLexeme c rest = .ok ⟨kind, text, kept⟩ := by
  have hwhole : text ++ (kept ++ dropped) = c :: cs := nextLexeme_append h
  have hwritten : text ≠ [] := nextLexeme_text_ne_nil h
  obtain ⟨d, tail, rfl⟩ := List.exists_cons_of_ne_nil hwritten
  obtain ⟨rfl, -⟩ := List.cons.inj hwhole
  exact ⟨tail ++ kept, rfl, nextLexeme_cut h rfl rfl⟩

/-- What is read in a text is read alone. -/
theorem ReadIn.alone {offset : Nat} {t : Token} (h : t.ReadIn offset cs) : t.Alone := by
  obtain ⟨before, c, rest, after, -, -, hread⟩ := h
  rw [← List.nil_append after] at hread
  obtain ⟨rest, htext, halone⟩ := exists_cut hread
  rw [List.append_nil] at htext
  exact ⟨c, rest, htext, halone⟩

/-- No piece of a text that starts where a token stands and goes on behind it is one token. -/
theorem ReadIn.longest {offset : Nat} {t : Token} (h : t.ReadIn offset cs)
    {before more behind : List Char} (hbefore : t.span.start = offset + byteSize before)
    (hcs : cs = before ++ (t.lexeme.toList ++ (more ++ behind))) (hmore : more ≠ [])
    {p : Position} {again : Tokens}
    (hagain : tokenizeFrom p (t.lexeme ++ String.ofList more).toList = .ok again) :
    again.items.map lexeme ≠ [t.lexeme ++ String.ofList more] := by
  obtain ⟨before', c, rest, after, hcs', hbefore', hread⟩ := h
  -- The text before the token is the one with as many bytes.
  have hsame : before' = before := by
    have hsize : byteSize before' = byteSize before := by omega
    rw [← charsBefore_append before' (c :: rest), ← hcs', hsize, hcs, charsBefore_append]
  subst hsame
  have hrest : t.lexeme.toList ++ (more ++ behind) = c :: rest :=
    List.append_cancel_left (hcs.symm.trans hcs')
  have hafter : after = more ++ behind :=
    List.append_cancel_left ((nextLexeme_append hread).trans hrest.symm)
  subst hafter
  obtain ⟨rest, htext, hfirst⟩ := exists_cut hread
  rw [String.toList_append, String.toList_ofList, htext, tokenizeFrom_of_nextLexeme hfirst] at hagain
  dsimp only at hagain
  -- The piece is read as the token and more, if it can be read.
  cases hothers : tokenizeFrom (p.past t.lexeme.toList) more with
  | error fault =>
    rw [hothers] at hagain
    cases hagain
  | ok others =>
    rw [hothers] at hagain
    cases hagain
    intro hone
    rw [List.map_cons] at hone
    have hlexeme := congrArg String.toList (List.cons.inj hone).1
    rw [String.ofList_toList, String.toList_append, String.toList_ofList] at hlexeme
    exact hmore (List.append_right_eq_self.1 hlexeme.symm)

/-! ## Tokens joined by spaces -/

/-- A space before a text moves its tokens by one column. -/
theorem tokenizeFrom_space (p : Position) (cs : List Char) :
    tokenizeFrom p (' ' :: cs) = tokenizeFrom (p.past [' ']) cs := by
  have hpast (gap : List Char) : p.past (' ' :: gap) = (p.past [' ']).past gap := by
    cases gap <;> rfl
  cases hgap : splitGap false cs with
  | mk gap after =>
    have hspace : splitGap false (' ' :: cs) = (' ' :: gap, after) := by
      rw [splitGap]
      dsimp only
      rw [hgap]
      rfl
    cases after with
    | nil => rw [tokenizeFrom_of_gap hspace, tokenizeFrom_of_gap hgap, hpast]
    | cons c rest =>
      cases hl : nextLexeme c rest with
      | error wrong =>
        rw [tokenizeFrom_of_misspelling hspace hl, tokenizeFrom_of_misspelling hgap hl, hpast]
      | ok l => rw [tokenizeFrom_of_lexeme hspace hl, tokenizeFrom_of_lexeme hgap hl, hpast]

/-- The lexeme of a token that is read alone has this one token. -/
theorem Alone.tokenizeFrom_lexeme {t : Token} (h : t.Alone) (p : Position) :
    ∃ span ending, tokenizeFrom p t.lexeme.toList = .ok ⟨[⟨t.kind, span, t.lexeme⟩], ending⟩ := by
  obtain ⟨c, rest, htext, halone⟩ := h
  have hfirst := tokenizeFrom_of_nextLexeme (p := p) halone
  have hnone : tokenizeFrom (p.past t.lexeme.toList) [] = .ok ⟨[], _⟩ := tokenizeFrom_of_gap rfl
  dsimp only at hfirst
  rw [hnone, String.ofList_toList, ← htext] at hfirst
  exact ⟨_, _, hfirst⟩

/-- A token that is read alone is read before a space as well. -/
theorem Alone.tokenizeFrom_append {t : Token} (h : t.Alone) (p : Position) (more : List Char) :
    ∃ span q, tokenizeFrom p (t.lexeme.toList ++ ' ' :: more) =
      (tokenizeFrom q more).map fun tokens =>
        { tokens with items := ⟨t.kind, span, t.lexeme⟩ :: tokens.items } := by
  obtain ⟨c, rest, htext, halone⟩ := h
  have hspace : nextLexeme c (rest ++ ' ' :: more) = _ := nextLexeme_divides (by decide) halone
  have hfirst := tokenizeFrom_of_nextLexeme (p := p) hspace
  dsimp only at hfirst
  rw [List.nil_append, tokenizeFrom_space, String.ofList_toList, ← List.cons_append, ← htext]
    at hfirst
  exact ⟨_, _, hfirst⟩

/-- The lexemes of tokens that are read alone, joined by spaces, are read as these tokens. -/
theorem tokenizeFrom_joined {items : List Token} (h : ∀ t ∈ items, t.Alone) (p : Position) :
    ∃ again, tokenizeFrom p (" ".intercalate (items.map lexeme)).toList = .ok again ∧
      again.items.map written = items.map written := by
  induction items generalizing p with
  | nil => exact ⟨_, tokenizeFrom_of_gap (by rfl), rfl⟩
  | cons t items ih =>
    obtain ⟨ht, hitems⟩ := List.forall_mem_cons.1 h
    cases items with
    | nil =>
      obtain ⟨span, ending, hone⟩ := ht.tokenizeFrom_lexeme p
      rw [List.map_singleton, String.intercalate_singleton, hone]
      exact ⟨_, rfl, rfl⟩
    | cons u items =>
      have htext : (" ".intercalate ((t :: u :: items).map lexeme)).toList =
          t.lexeme.toList ++ ' ' :: (" ".intercalate ((u :: items).map lexeme)).toList := by
        rw [List.map_cons, List.map_cons, String.intercalate_cons_cons, String.toList_append,
          String.toList_append, List.append_assoc]
        rfl
      obtain ⟨span, q, hfirst⟩ :=
        ht.tokenizeFrom_append p (" ".intercalate ((u :: items).map lexeme)).toList
      obtain ⟨again, hagain, hwritten⟩ := ih hitems q
      rw [htext, hfirst, hagain]
      refine ⟨_, rfl, ?_⟩
      rw [List.map_cons, List.map_cons, hwritten]
      rfl

end Token

/-- Reading the tokens of a text again gives the same tokens: each lexeme alone is read as its token,
and the lexemes joined by spaces are read as tokens of the same kinds and lexemes. Each token is the
longest that can be read where it stands: no piece of the text that starts there and goes on behind
it is one token. -/
theorem tokenize_stable {source : String} {tokens : Tokens} (h : tokenize source = .ok tokens) :
    (∀ t ∈ tokens.items, ∃ span ending,
      tokenize t.lexeme = .ok ⟨[⟨t.kind, span, t.lexeme⟩], ending⟩) ∧
    (∃ again, tokenize (" ".intercalate (tokens.items.map Token.lexeme)) = .ok again ∧
      again.items.map Token.written = tokens.items.map Token.written) ∧
    ∀ t ∈ tokens.items, ∀ before more behind,
      source.toList = before ++ (t.lexeme.toList ++ (more ++ behind)) →
      byteSize before = t.span.start → more ≠ [] →
      ∀ again, tokenize (t.lexeme ++ String.ofList more) = .ok again →
        again.items.map Token.lexeme ≠ [t.lexeme ++ String.ofList more] := by
  have hread := Token.readIn_of_tokenizeFrom _ _ tokens h
  have halone (t : Token) (ht : t ∈ tokens.items) : t.Alone := (hread t ht).alone
  refine ⟨fun t ht => (halone t ht).tokenizeFrom_lexeme _, Token.tokenizeFrom_joined halone _, ?_⟩
  intro t ht before more behind hsource hbefore hmore again hagain
  have hstart : t.span.start = Position.origin.offset + byteSize before := by
    rw [hbefore]
    exact (Nat.zero_add _).symm
  exact (hread t ht).longest hstart hsource hmore hagain

/-- A text with three stars in a row. -/
def starryText : String := "x***y"

/-- Its tokens. -/
def starryTokens : Tokens :=
  ⟨[⟨.name "x", ⟨0, 1, 1, 1⟩, "x"⟩, ⟨.symbol .power, ⟨1, 3, 1, 2⟩, "**"⟩,
    ⟨.symbol .star, ⟨3, 4, 1, 4⟩, "*"⟩, ⟨.name "y", ⟨4, 5, 1, 5⟩, "y"⟩], ⟨5, 5, 1, 6⟩⟩

/-- The tokens of the three stars alone. -/
def threeStars : Tokens :=
  ⟨[⟨.symbol .power, ⟨0, 2, 1, 1⟩, "**"⟩, ⟨.symbol .star, ⟨2, 3, 1, 3⟩, "*"⟩], ⟨3, 3, 1, 4⟩⟩

/-- The first two stars are one token, alone and with spaces around them, and the three stars are
not. -/
theorem tokenize_stable_stars :
    tokenize starryText = .ok starryTokens ∧
      (∃ span ending, tokenize "**" = .ok ⟨[⟨.symbol .power, span, "**"⟩], ending⟩) ∧
      (∃ again, tokenize "x ** * y" = .ok again ∧
        again.items.map Token.written = starryTokens.items.map Token.written) ∧
      tokenize "***" = .ok threeStars ∧ threeStars.items.map Token.lexeme ≠ ["***"] := by
  have htokens : tokenize starryText = .ok starryTokens := by
    with_unfolding_all rfl
  have hthree : tokenize "***" = .ok threeStars := by
    with_unfolding_all rfl
  obtain ⟨halone, hjoined, hlongest⟩ := tokenize_stable htokens
  have hpower : ⟨.symbol .power, ⟨1, 3, 1, 2⟩, "**"⟩ ∈ starryTokens.items :=
    List.mem_cons_of_mem _ List.mem_cons_self
  have hmore := hlongest _ hpower ['x'] ['*'] ['y'] rfl rfl (by simp) threeStars hthree
  exact ⟨htokens, halone _ hpower, hjoined, hthree, hmore⟩

end QuantumScript
