import QuantumScript.Proofs.Token.Written

/-!
# How tokens are spelled

`Spelled` is the lexical grammar of the language: which characters spell which token, said without
reading anything. A text is read as one token exactly if it spells it (`spelled_iff`).

In the body of a string a quote is escaped by a backslash before it, unless that one is escaped
itself: an odd number of backslashes stands directly before it (`Escaped`). A string is read up to
the first quote that is not (`quotesEscaped_of_splitString?`, `splitString?_of_quotesEscaped`), and
without one it does not end (`splitString?_eq_none_iff`).
-/

namespace QuantumScript

namespace Token

variable {c quote : Char} {cs rest before body after text : List Char} {kind : Kind}

/-! ## Escaped characters -/

/-- The number of backslashes at the end of a text. -/
def backslashes (before : List Char) : Nat :=
  (before.reverse.takeWhile (· = '\\')).length

/-- What follows a text in the body of a string is escaped. -/
def Escaped (before : List Char) : Prop :=
  backslashes before % 2 = 1

/-- What comes first is not escaped. -/
theorem not_escaped_nil : ¬ Escaped [] :=
  nofun

/-- No more backslashes stand at the end of a text than it has characters. -/
theorem backslashes_le (before : List Char) : backslashes before ≤ before.length := by
  have h := (List.takeWhile_prefix (fun c : Char => decide (c = '\\'))
    (l := before.reverse)).length_le
  rwa [List.length_reverse] at h

/-- A character before a text counts for the backslashes at its end if the text has no others. -/
theorem backslashes_cons (c : Char) (before : List Char) :
    backslashes (c :: before) =
      if backslashes before = before.length then before.length + if c = '\\' then 1 else 0
      else backslashes before := by
  unfold backslashes
  rw [List.reverse_cons, List.takeWhile_append, List.length_reverse]
  split
  · rw [List.length_append, List.length_reverse]
    by_cases hc : c = '\\' <;> simp [hc]
  · rfl

/-- A character that is no backslash escapes nothing. -/
theorem escaped_cons (h : c ≠ '\\') : Escaped (c :: before) ↔ Escaped before := by
  unfold Escaped
  rw [backslashes_cons, if_neg h]
  split <;> omega

/-- A backslash escapes the character after it and nothing else. -/
theorem escaped_backslash (c : Char) : Escaped ('\\' :: c :: before) ↔ Escaped before := by
  have hle := backslashes_le before
  unfold Escaped
  rw [backslashes_cons, backslashes_cons, if_pos rfl, List.length_cons]
  by_cases hc : c = '\\'
  · rw [if_pos hc]
    split <;> split <;> omega
  · rw [if_neg hc]
    split <;> split <;> omega

/-- Every quote in a text is escaped. -/
def QuotesEscaped (quote : Char) (cs : List Char) : Prop :=
  ∀ before after, cs = before ++ quote :: after → Escaped before

/-- In no text there is no quote. -/
theorem quotesEscaped_nil : QuotesEscaped quote [] := by
  intro before after heq
  cases before <;> cases heq

/-- A character at the front that is no backslash is no such quote. -/
theorem quotesEscaped_cons (h : c ≠ '\\') :
    QuotesEscaped quote (c :: cs) ↔ c ≠ quote ∧ QuotesEscaped quote cs := by
  constructor
  · intro hall
    refine ⟨?_, fun before after heq => (escaped_cons h).1 (hall (c :: before) after (heq ▸ rfl))⟩
    rintro rfl
    exact not_escaped_nil (hall [] cs rfl)
  · rintro ⟨hne, hall⟩ before after heq
    cases before with
    | nil => exact absurd (List.cons.inj heq).1 hne
    | cons d before =>
      obtain ⟨rfl, hrest⟩ := List.cons.inj heq
      exact (escaped_cons h).2 (hall before after hrest)

/-- A backslash at the front escapes the character after it, which may be a quote. -/
theorem quotesEscaped_backslash (hquote : quote ≠ '\\') :
    QuotesEscaped quote ('\\' :: c :: cs) ↔ QuotesEscaped quote cs := by
  constructor
  · intro hall before after heq
    exact (escaped_backslash c).1 (hall ('\\' :: c :: before) after (heq ▸ rfl))
  · intro hall before after heq
    match before with
    | [] => exact absurd (List.cons.inj heq).1.symm hquote
    | [d] =>
      obtain ⟨rfl, -⟩ := List.cons.inj heq
      rfl
    | d :: e :: before =>
      obtain ⟨rfl, hmore⟩ := List.cons.inj heq
      obtain ⟨rfl, hrest⟩ := List.cons.inj hmore
      exact (escaped_backslash c).2 (hall before after hrest)

/-! ## Strings -/

/-- A string does not end exactly if every quote after the opening one is escaped. -/
theorem splitString?_eq_none_iff (hquote : quote ≠ '\\') :
    splitString? quote cs = none ↔ QuotesEscaped quote cs := by
  fun_induction splitString? quote cs with
  | case1 => exact ⟨fun _ => quotesEscaped_nil, fun _ => rfl⟩
  | case2 =>
    exact ⟨fun h => absurd h (Option.some_ne_none _), fun h => absurd (h [] [] rfl) not_escaped_nil⟩
  | case3 c hc =>
    refine ⟨fun _ before after heq => ?_, fun _ => rfl⟩
    cases before with
    | nil => exact absurd (List.cons.inj heq).1 hc
    | cons d before => cases before <;> cases (List.cons.inj heq).2
  | case4 d rest =>
    exact ⟨fun h => absurd h (Option.some_ne_none _),
      fun h => absurd (h [] (d :: rest) rfl) not_escaped_nil⟩
  | case5 d rest _ ih => rw [Option.map_eq_none_iff, ih, quotesEscaped_backslash hquote]
  | case6 c d rest hc hb ih =>
    rw [Option.map_eq_none_iff, ih, quotesEscaped_cons hb]
    exact ⟨fun h => ⟨hc, h⟩, fun h => h.2⟩

/-- What is read of a string are characters with every quote escaped, up to one that is not. -/
theorem quotesEscaped_of_splitString? (hquote : quote ≠ '\\')
    (h : splitString? quote cs = some (body, after)) :
    QuotesEscaped quote body ∧ ¬ Escaped body := by
  fun_induction splitString? quote cs generalizing body with
  | case1 => cases h
  | case2 =>
    cases h
    exact ⟨quotesEscaped_nil, not_escaped_nil⟩
  | case3 => cases h
  | case4 =>
    cases h
    exact ⟨quotesEscaped_nil, not_escaped_nil⟩
  | case5 d rest _ ih =>
    obtain ⟨⟨inner, last⟩, hi, heq⟩ := Option.map_eq_some_iff.1 h
    cases heq
    rw [quotesEscaped_backslash hquote, escaped_backslash]
    exact ih hi
  | case6 c d rest hc hb ih =>
    obtain ⟨⟨inner, last⟩, hi, heq⟩ := Option.map_eq_some_iff.1 h
    cases heq
    rw [quotesEscaped_cons hb, escaped_cons hb]
    exact ⟨⟨hc, (ih hi).1⟩, (ih hi).2⟩

/-- Characters with every quote escaped are read up to a quote behind them that is not. -/
theorem splitString?_of_quotesEscaped (hquote : quote ≠ '\\') (hbody : QuotesEscaped quote body)
    (hclosed : ¬ Escaped body) (after : List Char) :
    splitString? quote (body ++ quote :: after) = some (body, after) := by
  cases hsplit : splitString? quote (body ++ quote :: after) with
  | none => exact absurd ((splitString?_eq_none_iff hquote).1 hsplit body after rfl) hclosed
  | some found =>
    obtain ⟨other, rest⟩ := found
    obtain ⟨hother, hends⟩ := quotesEscaped_of_splitString? hquote hsplit
    -- Neither of the two closing quotes can stand in the body of the other.
    rcases List.append_eq_append_iff.1 (splitString?_append hsplit) with
      ⟨more, rfl, hmore⟩ | ⟨more, rfl, hmore⟩
    · cases more with
      | nil => simpa [eq_comm] using hmore
      | cons d more =>
        obtain ⟨rfl, -⟩ := List.cons.inj hmore
        exact absurd (hbody other more rfl) hends
    · cases more with
      | nil => simpa [eq_comm] using hmore
      | cons d more =>
        obtain ⟨rfl, -⟩ := List.cons.inj hmore
        exact absurd (hother body more rfl) hclosed

/-! ## The grammar -/

/-- Characters that spell a token. -/
inductive Spelled : Kind → List Char → Prop
  /-- A line end. -/
  | newline : Spelled .newline ['\n']
  /-- Two equal quotes, of which the second is the first that is not escaped, and what is between
  them. -/
  | text {quote : Char} {body : List Char} (opens : isQuote quote = true)
    (inside : QuotesEscaped quote body) (closes : ¬ Escaped body) :
    Spelled (.text (String.ofList (decodeBody body))) (quote :: body ++ [quote])
  /-- Digits. -/
  | whole {digits : List Char} (written : digits ≠ []) (decimal : ∀ d ∈ digits, d.isDigit = true) :
    Spelled (.number (Decimal.nearest (Decimal.digitsValue 0 digits) 0)) digits
  /-- Digits and a point, and perhaps more digits. -/
  | point {whole fraction : List Char} (written : whole ≠ [])
    (decimal : ∀ d ∈ whole ++ fraction, d.isDigit = true) :
    Spelled (.number (Decimal.nearest (Decimal.digitsValue 0 (whole ++ fraction))
      (-fraction.length))) (whole ++ '.' :: fraction)
  /-- A keyword. -/
  | keyword (word : Keyword) : Spelled (.keyword word) word.spelling.toList
  /-- An identifier. -/
  | name {word : String} (identifier : IsIdentifier word) : Spelled (.name word) word.toList
  /-- A symbol. -/
  | symbol (sign : Symbol) : Spelled (.symbol sign) sign.chars

/-- A quote is no backslash. -/
theorem ne_backslash_of_isQuote (h : isQuote quote = true) : quote ≠ '\\' := by
  rintro rfl
  exact absurd h (by decide)

/-- A name or keyword at the front of a text is spelled there. -/
theorem spelled_wordLexeme (hc : startsName c = true) :
    Spelled (wordLexeme (c :: rest)).kind (wordLexeme (c :: rest)).text := by
  have hlexical : (wordLexeme (c :: rest)).kind.Lexical := lexical_wordLexeme hc
  have htext (word : String) (h : String.ofList ((c :: rest).takeWhile continuesName) = word) :
      word.toList = (c :: rest).takeWhile continuesName := by
    rw [← h, String.toList_ofList]
  unfold wordLexeme at hlexical ⊢
  dsimp only at hlexical ⊢
  cases hword : Keyword.ofWord? (String.ofList ((c :: rest).takeWhile continuesName)) with
  | some word =>
    have hspelling := List.find?_some hword
    rw [← htext word.spelling (of_decide_eq_true hspelling).symm]
    exact .keyword word
  | none =>
    rw [hword] at hlexical
    have hname := Spelled.name hlexical
    rwa [String.toList_ofList] at hname

/-- The token at the front of a text is spelled there. -/
theorem spelled_of_nextLexeme {l : Lexeme} (h : nextLexeme c rest = .ok l) :
    Spelled l.kind l.text := by
  have hdigits (cs : List Char) : ∀ d ∈ cs.takeWhile Char.isDigit, d.isDigit = true :=
    List.all_eq_true.1 List.all_takeWhile
  unfold nextLexeme at h
  split at h
  · rename_i hc
    cases h
    subst hc
    exact .newline
  split at h
  · rename_i hq
    unfold stringLexeme at h
    split at h
    · rename_i hsplit
      cases h
      obtain ⟨hinside, hcloses⟩ :=
        quotesEscaped_of_splitString? (ne_backslash_of_isQuote hq) hsplit
      exact .text hq hinside hcloses
    · cases h
  split at h
  · rename_i hd
    have hwhole : (c :: rest).takeWhile Char.isDigit ≠ [] := by simp [hd]
    unfold numberLexeme at h
    dsimp only at h
    split at h
    · split at h
      · cases h
      · cases h
        exact .point hwhole (List.forall_mem_append.2 ⟨hdigits _, hdigits _⟩)
    · cases h
      exact .whole hwhole (hdigits _)
  split at h
  · cases h
    exact spelled_wordLexeme ‹_›
  · unfold symbolLexeme at h
    split at h <;> cases h
    exact .symbol _

/-- Digits are written as they are. -/
theorem nextLexeme_whole {digits : List Char} (hwritten : c :: cs = digits)
    (hdigits : ∀ d ∈ digits, d.isDigit = true) :
    nextLexeme c cs = .ok
      ⟨.number (Decimal.nearest (Decimal.digitsValue 0 digits) 0), digits, []⟩ := by
  have hd : c.isDigit = true := hdigits c (by simp [← hwritten])
  have hcontinues : continuesName c = true := by rw [continuesName, hd, Bool.or_true]
  obtain ⟨hn, hq⟩ := unquoted_of_continuesName hcontinues
  have htake := List.takeWhile_eq_self_iff.2 hdigits
  have hdrop := List.dropWhile_eq_nil_iff.2 hdigits
  rw [nextLexeme, if_neg hn, hq, hd, hwritten, numberLexeme, htake, hdrop]
  simp

/-- What spells a token is read as that token. -/
theorem nextLexeme_of_spelled (h : Spelled kind cs) :
    ∃ c rest, cs = c :: rest ∧ nextLexeme c rest = .ok ⟨kind, cs, []⟩ := by
  cases h with
  | newline => exact ⟨_, _, rfl, rfl⟩
  | @text quote body opens inside closes =>
    refine ⟨quote, body ++ [quote], rfl, ?_⟩
    have hn : quote ≠ '\n' := by
      rintro rfl
      exact absurd opens (by decide)
    rw [nextLexeme, if_neg hn, if_pos opens, stringLexeme,
      splitString?_of_quotesEscaped (ne_backslash_of_isQuote opens) inside closes]
  | whole written decimal =>
    obtain ⟨c, rest, rfl⟩ := List.exists_cons_of_ne_nil written
    exact ⟨c, rest, rfl, nextLexeme_whole rfl decimal⟩
  | @point whole fraction written decimal =>
    obtain ⟨c, rest, rfl⟩ := List.exists_cons_of_ne_nil written
    exact ⟨c, rest ++ '.' :: fraction, rfl, nextLexeme_number rfl decimal⟩
  | keyword word =>
    obtain ⟨c, rest, hword, hread⟩ := nextLexeme_keyword word
    exact ⟨c, rest, hword, hword ▸ hread⟩
  | @name word identifier =>
    obtain ⟨⟨c, rest, hword, hc⟩, hcontinues, hfree⟩ := identifier
    obtain rfl : String.ofList (c :: rest) = word := by rw [← hword, String.ofList_toList]
    rw [String.toList_ofList] at hcontinues ⊢
    exact ⟨c, rest, rfl, nextLexeme_name hc hcontinues hfree⟩
  | symbol sign =>
    obtain ⟨c, rest, hsign, hread⟩ := nextLexeme_symbol sign
    exact ⟨c, rest, hsign, hsign ▸ hread⟩

/-- Characters spell a token exactly if they are read as that token and no more. -/
theorem spelled_iff :
    Spelled kind (c :: rest) ↔ nextLexeme c rest = .ok ⟨kind, c :: rest, []⟩ := by
  constructor
  · intro h
    obtain ⟨d, more, heq, hread⟩ := nextLexeme_of_spelled h
    obtain ⟨rfl, rfl⟩ := List.cons.inj heq
    exact hread
  · intro h
    exact spelled_of_nextLexeme h

end Token

end QuantumScript
