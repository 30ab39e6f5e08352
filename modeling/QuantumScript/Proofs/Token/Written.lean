import Mathlib.Data.List.TakeWhile
import QuantumScript.Proofs.Token.Join

/-!
# Kinds of tokens that can be written

A name is an identifier and a number is a numeral: such kinds of tokens are lexical. The tokens of a
text are lexical (`lexical_of_tokenize`), and for all lexical kinds there is a text with tokens of
these kinds (`exists_tokenize`): each token is written in one way, with a space before it.
-/

namespace QuantumScript

namespace Token

/-! ## What is read is lexical -/

/-- A word that a name may be: a letter or underscore, then letters, underscores and digits, and no
keyword. -/
structure IsIdentifier (word : String) : Prop where
  /-- It starts as a name does. -/
  starts : ∃ c rest, word.toList = c :: rest ∧ startsName c = true
  /-- It goes on as a name does. -/
  continues : ∀ c ∈ word.toList, continuesName c = true
  /-- It is no keyword. -/
  free : Keyword.ofWord? word = none

/-- A number that is nearest to a decimal written with digits, and perhaps a point and more
digits. -/
def IsNumeral (n : Float) : Prop :=
  ∃ whole fraction : List Char, whole ≠ [] ∧ (∀ c ∈ whole ++ fraction, c.isDigit = true) ∧
    n = Decimal.nearest (Decimal.digitsValue 0 (whole ++ fraction)) (-fraction.length)

/-- A kind of token that can be written. -/
def Kind.Lexical : Kind → Prop
  | .name word => IsIdentifier word
  | .number n => IsNumeral n
  | _ => True

/-- A number token carries a numeral. -/
theorem lexical_numberLexeme {c : Char} {rest : List Char} {l : Lexeme} (hc : c.isDigit = true)
    (h : numberLexeme (c :: rest) = .ok l) : l.kind.Lexical := by
  have hwhole : (c :: rest).takeWhile Char.isDigit ≠ [] := by simp [hc]
  have hdigits (cs : List Char) : ∀ d ∈ cs.takeWhile Char.isDigit, d.isDigit = true :=
    List.all_eq_true.1 List.all_takeWhile
  unfold numberLexeme at h
  dsimp only at h
  split at h
  · split at h
    · cases h
    · cases h
      exact ⟨_, _, hwhole, List.forall_mem_append.2 ⟨hdigits _, hdigits _⟩, rfl⟩
  · cases h
    refine ⟨_, [], hwhole, List.forall_mem_append.2 ⟨hdigits _, nofun⟩, ?_⟩
    rw [List.append_nil]
    rfl

/-- A name token carries an identifier. -/
theorem lexical_wordLexeme {c : Char} {rest : List Char} (hc : startsName c = true) :
    (wordLexeme (c :: rest)).kind.Lexical := by
  unfold wordLexeme
  dsimp only
  split
  · trivial
  · rename_i hfree
    refine ⟨⟨c, rest.takeWhile continuesName, ?_, hc⟩, ?_, hfree⟩
    · simp [continuesName, hc]
    · rw [String.toList_ofList]
      exact List.all_eq_true.1 List.all_takeWhile

/-- A token at the front of a text is lexical. -/
theorem lexical_nextLexeme {c : Char} {rest : List Char} {l : Lexeme}
    (h : nextLexeme c rest = .ok l) : l.kind.Lexical := by
  unfold nextLexeme at h
  split at h
  · cases h
    trivial
  split at h
  · unfold stringLexeme at h
    split at h <;> cases h
    trivial
  split at h
  · exact lexical_numberLexeme ‹_› h
  split at h
  · cases h
    exact lexical_wordLexeme ‹_›
  · unfold symbolLexeme at h
    split at h <;> cases h
    trivial

/-- The tokens of a text are lexical, wherever it starts. -/
theorem lexical_tokenizeFrom (p : Position) (cs : List Char) :
    ∀ tokens, tokenizeFrom p cs = .ok tokens → ∀ t ∈ tokens.items, t.kind.Lexical := by
  fun_induction tokenizeFrom p cs with
  | case1 =>
    rintro _ ⟨⟩
    exact fun t ht => absurd ht List.not_mem_nil
  | case2 =>
    intro tokens h
    cases h
  | case3 =>
    intro tokens h
    cases h
  | case4 p cs gap c rest hgap start l hl _ stop others hothers token ih =>
    rintro _ ⟨⟩
    exact List.forall_mem_cons.2 ⟨lexical_nextLexeme hl, ih others hothers⟩

/-! ## What is lexical can be written -/

variable {c : Char} {cs : List Char} {l : Lexeme}

/-- A token that is no string and no line end does not start with a dividing character. -/
theorem ne_of_nextLexeme {b : Char} (h : nextLexeme c cs = .ok l) (hb : divides b)
    (hq : isQuote b = false) (hn : b ≠ '\n') : c ≠ b := by
  rintro rfl
  have hword : startsName c = false := (Bool.or_eq_false_iff.1 (continuesName_of_divides hb)).1
  rw [nextLexeme, if_neg hn, hq, isDigit_of_divides hb, hword] at h
  simp only [Bool.false_eq_true, if_false] at h
  unfold symbolLexeme at h
  split at h
  · rename_i sign hsign
    have hleads := List.find?_some hsign
    obtain ⟨after, hafter⟩ := List.isPrefixOf_iff_prefix.1 hleads
    have hmem : c ∈ sign.chars := by
      cases hchars : sign.chars with
      | nil => cases sign <;> cases hchars
      | cons d rest =>
        rw [hchars] at hafter
        rw [(List.cons.inj hafter).1]
        exact List.mem_cons_self
    exact not_mem_chars_of_divides hb sign hmem
  · cases h

/-- No gap stands before a token that starts at once. -/
theorem splitGap_of_nextLexeme (h : nextLexeme c cs = .ok l) (more : List Char) :
    splitGap false (c :: more) = ([], c :: more) := by
  have hspace : c ≠ ' ' := ne_of_nextLexeme h (by decide) (by decide) (by decide)
  have htab : c ≠ '\t' := ne_of_nextLexeme h (by decide) (by decide) (by decide)
  have hreturn : c ≠ '\r' := ne_of_nextLexeme h (by decide) (by decide) (by decide)
  have hcomment : c ≠ '#' := ne_of_nextLexeme h (by decide) (by decide) (by decide)
  simp [splitGap, hspace, htab, hreturn, hcomment]

/-- A character of a name is no line end and no quote. -/
theorem unquoted_of_continuesName (h : continuesName c = true) :
    c ≠ '\n' ∧ isQuote c = false := by
  have hne (b : Char) (hb : continuesName b = false) : c ≠ b := by
    rintro rfl
    exact Bool.false_ne_true (hb.symm.trans h)
  refine ⟨hne '\n' (by decide), ?_⟩
  rw [isQuote, Bool.or_eq_false_iff, decide_eq_false_iff_not, decide_eq_false_iff_not]
  exact ⟨hne _ (by decide), hne _ (by decide)⟩

/-- The characters between quotes that stand for a text. -/
def escapeBody : List Char → List Char
  | [] => []
  | c :: rest => if c = '"' || c = '\\' then '\\' :: c :: escapeBody rest else c :: escapeBody rest

/-- The escaped characters stand for the text. -/
theorem decodeBody_escapeBody (cs : List Char) : decodeBody (escapeBody cs) = cs := by
  induction cs with
  | nil => rfl
  | cons c rest ih =>
    rw [escapeBody]
    split
    · rename_i hc
      simp only [Bool.or_eq_true, decide_eq_true_eq] at hc
      rw [decodeBody, if_pos rfl, ih]
      rcases hc with rfl | rfl <;> rfl
    · rename_i hc
      simp only [Bool.or_eq_true, decide_eq_true_eq, not_or] at hc
      cases hrest : escapeBody rest with
      | nil =>
        rw [hrest] at ih
        rw [decodeBody, ← ih]
        rfl
      | cons d more =>
        rw [decodeBody, if_neg hc.2, ← hrest, ih]

/-- The escaped characters end at the quote behind them. -/
theorem splitString?_escapeBody (cs : List Char) :
    splitString? '"' (escapeBody cs ++ ['"']) = some (escapeBody cs, []) := by
  induction cs with
  | nil => rfl
  | cons c rest ih =>
    rw [escapeBody]
    split
    · rename_i hc
      simp only [List.cons_append]
      rw [splitString?, if_neg (by decide), if_pos rfl, ih]
      rfl
    · rename_i hc
      simp only [Bool.or_eq_true, decide_eq_true_eq, not_or] at hc
      obtain ⟨d, more, hmore⟩ : ∃ d more, escapeBody rest ++ ['"'] = d :: more := by
        cases escapeBody rest with
        | nil => exact ⟨_, _, rfl⟩
        | cons d more => exact ⟨_, _, rfl⟩
      rw [List.cons_append, hmore, splitString?, if_neg hc.1, if_neg hc.2, ← hmore, ih]
      rfl

/-- A text is written between quotes. -/
theorem nextLexeme_text (value : String) :
    nextLexeme '"' (escapeBody value.toList ++ ['"']) =
      .ok ⟨.text value, '"' :: (escapeBody value.toList ++ ['"']), []⟩ := by
  rw [nextLexeme, if_neg (by decide), if_pos (by decide), stringLexeme, splitString?_escapeBody]
  dsimp only
  rw [decodeBody_escapeBody, String.ofList_toList]
  rfl

/-- A digit is no letter. -/
theorem startsName_of_isDigit (h : c.isDigit = true) : startsName c = false := by
  have hlt : c.toNat < 0x41 := by
    simp only [Char.isDigit, Bool.and_eq_true, decide_eq_true_eq] at h
    exact Nat.lt_of_le_of_lt (UInt32.le_iff_toNat_le.1 h.2) (by decide)
  -- The letters start at `A`.
  obtain ⟨last, rest, hranges⟩ : ∃ last rest, Text.alphabetics.ranges = (0x41, last) :: rest :=
    ⟨_, _, rfl⟩
  have hletter : Text.isAlphabetic c = false := by
    rw [Text.isAlphabetic, Text.CharSet.contains, hranges, Text.inRanges, if_pos hlt]
  rw [startsName, hletter, Bool.false_or, decide_eq_false_iff_not]
  rintro rfl
  exact absurd h (by decide)

/-- A name is written as it is. -/
theorem nextLexeme_name (hc : startsName c = true) (hcs : ∀ d ∈ c :: cs, continuesName d = true)
    (hfree : Keyword.ofWord? (String.ofList (c :: cs)) = none) :
    nextLexeme c cs = .ok ⟨.name (String.ofList (c :: cs)), c :: cs, []⟩ := by
  obtain ⟨hn, hq⟩ := unquoted_of_continuesName (hcs c List.mem_cons_self)
  have hd : c.isDigit = false := by
    rw [Bool.eq_false_iff]
    intro hd
    exact Bool.false_ne_true ((startsName_of_isDigit hd).symm.trans hc)
  have htake := List.takeWhile_eq_self_iff.2 hcs
  have hdrop := List.dropWhile_eq_nil_iff.2 hcs
  rw [nextLexeme, if_neg hn, hq, hd, hc]
  simp only [Bool.false_eq_true, if_false, if_true, wordLexeme, htake, hdrop, hfree]

/-- A numeral is written with a point. -/
theorem nextLexeme_number {whole fraction : List Char} (hwhole : c :: cs = whole)
    (hdigits : ∀ d ∈ whole ++ fraction, d.isDigit = true) :
    nextLexeme c (cs ++ '.' :: fraction) =
      .ok ⟨.number (Decimal.nearest (Decimal.digitsValue 0 (whole ++ fraction)) (-fraction.length)),
        whole ++ '.' :: fraction, []⟩ := by
  obtain ⟨hw, hf⟩ := List.forall_mem_append.1 hdigits
  have hd : c.isDigit = true := hw c (by simp [← hwhole])
  have hcontinues : continuesName c = true := by rw [continuesName, hd, Bool.or_true]
  obtain ⟨hn, hq⟩ := unquoted_of_continuesName hcontinues
  have htake := @List.takeWhile_append_of_pos _ Char.isDigit whole ('.' :: fraction) hw
  have hdrop := @List.dropWhile_append_of_pos _ Char.isDigit whole ('.' :: fraction) hw
  have htakef := List.takeWhile_eq_self_iff.2 hf
  have hdropf := List.dropWhile_eq_nil_iff.2 hf
  rw [nextLexeme, if_neg hn, hq, hd, ← List.cons_append, hwhole, numberLexeme, htake, hdrop]
  simp [htakef, hdropf]

/-- A keyword is written as it is spelled. -/
theorem nextLexeme_keyword (word : Keyword) :
    ∃ c cs, word.spelling.toList = c :: cs ∧
      nextLexeme c cs = .ok ⟨.keyword word, c :: cs, []⟩ := by
  cases word <;> exact ⟨_, _, rfl, by with_unfolding_all rfl⟩

/-- A symbol is written with its characters. -/
theorem nextLexeme_symbol (sign : Symbol) :
    ∃ c cs, sign.chars = c :: cs ∧ nextLexeme c cs = .ok ⟨.symbol sign, c :: cs, []⟩ := by
  cases sign <;> exact ⟨_, _, rfl, by with_unfolding_all rfl⟩

/-- Every lexical kind of token can be written. -/
theorem exists_nextLexeme {kind : Kind} (h : kind.Lexical) :
    ∃ c cs, nextLexeme c cs = .ok ⟨kind, c :: cs, []⟩ := by
  cases kind with
  | number n =>
    obtain ⟨whole, fraction, hwhole, hdigits, rfl⟩ := h
    obtain ⟨c, cs, rfl⟩ := List.exists_cons_of_ne_nil hwhole
    exact ⟨c, _, nextLexeme_number rfl hdigits⟩
  | text value => exact ⟨_, _, nextLexeme_text value⟩
  | name word =>
    obtain ⟨⟨c, cs, hword, hc⟩, hcontinues, hfree⟩ := h
    obtain rfl : String.ofList (c :: cs) = word := by rw [← hword, String.ofList_toList]
    rw [String.toList_ofList] at hcontinues
    exact ⟨c, cs, nextLexeme_name hc hcontinues hfree⟩
  | keyword word =>
    obtain ⟨c, cs, -, hword⟩ := nextLexeme_keyword word
    exact ⟨c, cs, hword⟩
  | symbol sign =>
    obtain ⟨c, cs, -, hsign⟩ := nextLexeme_symbol sign
    exact ⟨c, cs, hsign⟩
  | newline => exact ⟨'\n', [], rfl⟩

/-- For lexical kinds of tokens there is a text with such tokens, wherever it starts. -/
theorem exists_tokenizeFrom {kinds : List Kind} (h : ∀ kind ∈ kinds, kind.Lexical) (p : Position) :
    ∃ cs tokens, (∀ c rest, cs = c :: rest → c = ' ') ∧ tokenizeFrom p cs = .ok tokens ∧
      tokens.items.map Token.kind = kinds := by
  induction kinds generalizing p with
  | nil => exact ⟨[], _, nofun, tokenizeFrom_of_gap rfl, rfl⟩
  | cons kind kinds ih =>
    obtain ⟨hkind, hkinds⟩ := List.forall_mem_cons.1 h
    obtain ⟨c, text, hlexeme⟩ := exists_nextLexeme hkind
    obtain ⟨more, tokens, hspace, htokens, rfl⟩ :=
      ih hkinds ((p.past [' ']).past (c :: text))
    have hgap : splitGap false (' ' :: c :: (text ++ more)) = ([' '], c :: (text ++ more)) := by
      rw [splitGap]
      dsimp only
      rw [splitGap_of_nextLexeme hlexeme]
      rfl
    have hnext : nextLexeme c (text ++ more) = .ok ⟨kind, c :: text, more⟩ := by
      cases more with
      | nil => rw [List.append_nil, hlexeme]
      | cons b more =>
        obtain rfl := hspace b more rfl
        exact nextLexeme_divides (by decide) hlexeme
    have hall := tokenizeFrom_of_lexeme (p := p) hgap hnext
    dsimp only at hall
    rw [htokens] at hall
    refine ⟨_, _, ?_, hall, rfl⟩
    rintro _ _ ⟨⟩
    rfl

end Token

/-- The tokens of a source text are lexical. -/
theorem lexical_of_tokenize {source : String} {tokens : Tokens} (h : tokenize source = .ok tokens) :
    ∀ t ∈ tokens.items, t.kind.Lexical :=
  Token.lexical_tokenizeFrom _ _ tokens h

/-- For lexical kinds of tokens there is a source text with tokens of these kinds. -/
theorem exists_tokenize {kinds : List Token.Kind} (h : ∀ kind ∈ kinds, kind.Lexical) :
    ∃ source tokens, tokenize source = .ok tokens ∧ tokens.items.map Token.kind = kinds := by
  obtain ⟨cs, tokens, -, htokens, hkinds⟩ := Token.exists_tokenizeFrom h .origin
  refine ⟨String.ofList cs, tokens, ?_, hkinds⟩
  rw [tokenize, String.toList_ofList, htokens]

end QuantumScript

