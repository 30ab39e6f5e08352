import QuantumScript.Proofs.Token.Alone
import QuantumScript.Proofs.Token.Spelling

/-!
# String literals

`Decodes` reads the body of a string from left to right, in one pass: a backslash takes the
character after it with it, and all else stands for itself. A body is decoded exactly if it does not
end inside of such a pair (`decodes_iff`), and a character is consumed by a backslash exactly if the
pass gets to that backslash first (`escaped_iff`).

Both directions are in `string_literals`: what a string token stands for, and a literal for every
text.
-/

namespace QuantumScript

namespace Token

variable {c d quote : Char} {body before after rest value : List Char}

/-- What the body of a string stands for, read from left to right. -/
inductive Decodes : List Char → List Char → Prop
  /-- Nothing is left. -/
  | nil : Decodes [] []
  /-- A backslash and `n` stand for a line end. -/
  | newline {body value : List Char} (more : Decodes body value) :
    Decodes ('\\' :: 'n' :: body) ('\n' :: value)
  /-- A backslash and `t` stand for a tab. -/
  | tab {body value : List Char} (more : Decodes body value) :
    Decodes ('\\' :: 't' :: body) ('\t' :: value)
  /-- A backslash and any other character stand for that character. -/
  | escaped {c : Char} {body value : List Char} (hn : c ≠ 'n') (ht : c ≠ 't')
    (more : Decodes body value) : Decodes ('\\' :: c :: body) (c :: value)
  /-- All else stands for itself. -/
  | plain {c : Char} {body value : List Char} (h : c ≠ '\\') (more : Decodes body value) :
    Decodes (c :: body) (c :: value)

/-- A text with a backslash before each backslash and each quote. -/
def escaped (quote : Char) (value : List Char) : List Char :=
  value.flatMap fun c => if c = '\\' ∨ c = quote then ['\\', c] else [c]

/-- The literal for a text in some quotes. -/
def literal (quote : Char) (value : String) : String :=
  String.ofList (quote :: escaped quote value.toList ++ [quote])

/-! ## Decoding in one pass -/

/-- Nothing is decoded to nothing. -/
theorem decodes_nil : Decodes [] value ↔ value = [] := by
  constructor
  · rintro ⟨⟩
    rfl
  · rintro rfl
    exact .nil

/-- A backslash and the character after it are decoded together. -/
theorem decodes_backslash :
    Decodes ('\\' :: d :: rest) value ↔ ∃ more, Decodes rest more ∧ value = unescape d :: more := by
  constructor
  · intro h
    cases h with
    | newline more => exact ⟨_, more, rfl⟩
    | tab more => exact ⟨_, more, rfl⟩
    | escaped hn ht more => exact ⟨_, more, by rw [unescape, if_neg hn, if_neg ht]⟩
    | plain h => exact absurd rfl h
  · rintro ⟨more, h, rfl⟩
    unfold unescape
    split_ifs with hn ht
    · exact hn ▸ .newline h
    · exact ht ▸ .tab h
    · exact .escaped hn ht h

/-- A character other than a backslash is decoded to itself. -/
theorem decodes_cons (hc : c ≠ '\\') :
    Decodes (c :: rest) value ↔ ∃ more, Decodes rest more ∧ value = c :: more := by
  constructor
  · intro h
    cases h with
    | plain _ more => exact ⟨_, more, rfl⟩
    | _ => exact absurd rfl hc
  · rintro ⟨more, h, rfl⟩
    exact .plain hc h

/-- Nothing stands for a backslash that ends the body. -/
theorem not_decodes_backslash : ¬ Decodes ['\\'] value := by
  rintro (_ | _ | _ | _ | ⟨h, _⟩)
  exact absurd rfl h

/-- A body stands for a text exactly if it does not end inside of a pair. -/
theorem decodes_iff : Decodes body value ↔ ¬ Escaped body ∧ value = decodeBody body := by
  fun_induction decodeBody body generalizing value with
  | case1 => rw [decodes_nil, and_iff_right not_escaped_nil]
  | case2 c =>
    by_cases hc : c = '\\'
    · subst hc
      have hends : Escaped ['\\'] := rfl
      exact iff_of_false not_decodes_backslash fun h => h.1 hends
    · rw [decodes_cons hc, escaped_cons hc, and_iff_right not_escaped_nil]
      simp [decodes_nil]
  | case3 d rest ih =>
    simp only [decodes_backslash, escaped_backslash, ih]
    exact ⟨fun ⟨_, ⟨hopen, rfl⟩, h⟩ => ⟨hopen, h⟩, fun ⟨hopen, h⟩ => ⟨_, ⟨hopen, rfl⟩, h⟩⟩
  | case4 c d rest hc ih =>
    simp only [decodes_cons hc, escaped_cons hc, ih]
    exact ⟨fun ⟨_, ⟨hopen, rfl⟩, h⟩ => ⟨hopen, h⟩, fun ⟨hopen, h⟩ => ⟨_, ⟨hopen, rfl⟩, h⟩⟩

/-- One more backslash at the end is counted. -/
theorem backslashes_concat (before : List Char) :
    backslashes (before ++ ['\\']) = backslashes before + 1 := by
  simp [backslashes]

/-- What follows a text in a body is consumed by a backslash exactly if the pass over the text comes
to a backslash at its end. -/
theorem escaped_iff :
    Escaped before ↔ ∃ lead value, before = lead ++ ['\\'] ∧ Decodes lead value := by
  constructor
  · intro h
    rcases List.eq_nil_or_concat before with rfl | ⟨lead, c, rfl⟩
    · exact absurd h not_escaped_nil
    · rw [List.concat_eq_append] at h ⊢
      by_cases hc : c = '\\'
      · subst hc
        have heven : ¬ Escaped lead := by
          unfold Escaped at *
          rw [backslashes_concat] at h
          omega
        exact ⟨lead, _, rfl, decodes_iff.2 ⟨heven, rfl⟩⟩
      · have hnone : backslashes (lead ++ [c]) = 0 := by simp [backslashes, hc]
        rw [Escaped, hnone] at h
        exact absurd h (by decide)
  · rintro ⟨lead, value, rfl, h⟩
    have heven := (decodes_iff.1 h).1
    unfold Escaped at *
    rw [backslashes_concat]
    omega

/-! ## Literals -/

/-- An escaped text stands for the text. -/
theorem decodes_escaped (hn : quote ≠ 'n') (ht : quote ≠ 't') (value : List Char) :
    Decodes (escaped quote value) value := by
  induction value with
  | nil => exact .nil
  | cons c value ih =>
    rw [escaped, List.flatMap_cons]
    split_ifs with hc
    · rcases hc with rfl | rfl
      · exact .escaped (by decide) (by decide) ih
      · exact .escaped hn ht ih
    · exact .plain (fun h => hc (.inl h)) ih

/-- Every quote in an escaped text is escaped. -/
theorem quotesEscaped_escaped (hquote : quote ≠ '\\') (value : List Char) :
    QuotesEscaped quote (escaped quote value) := by
  induction value with
  | nil => exact quotesEscaped_nil
  | cons c value ih =>
    rw [escaped, List.flatMap_cons]
    split_ifs with hc
    · exact (quotesEscaped_backslash hquote).2 ih
    · obtain ⟨hbackslash, hc⟩ := not_or.1 hc
      exact (quotesEscaped_cons hbackslash).2 ⟨hc, ih⟩

/-- The quotes are the single and the double one. -/
theorem isQuote_iff : isQuote quote = true ↔ quote = '"' ∨ quote = '\x27' := by
  simp [isQuote]

/-- The literal for a text is spelled as the grammar says. -/
theorem spelled_literal (hopens : isQuote quote = true) (value : String) :
    Spelled (.text value) (literal quote value).toList := by
  have hn : quote ≠ 'n' := by rintro rfl; exact absurd hopens (by decide)
  have ht : quote ≠ 't' := by rintro rfl; exact absurd hopens (by decide)
  obtain ⟨hcloses, hdecoded⟩ := decodes_iff.1 (decodes_escaped hn ht value.toList)
  have hspelled := Spelled.text hopens
    (quotesEscaped_escaped (ne_backslash_of_isQuote hopens) value.toList) hcloses
  rw [← hdecoded, String.ofList_toList] at hspelled
  rw [literal, String.toList_ofList]
  exact hspelled

/-- A token that stands alone is spelled as the grammar says. -/
theorem Alone.spelled {t : Token} (h : t.Alone) : Spelled t.kind t.lexeme.toList := by
  obtain ⟨c, rest, -, hread⟩ := h
  exact spelled_of_nextLexeme hread

/-- What spells a string is a body in quotes. -/
theorem Spelled.exists_body {value : String} {text : List Char} (h : Spelled (.text value) text) :
    ∃ quote body, isQuote quote = true ∧
      (∀ before after, body = before ++ quote :: after →
        ∃ lead decoded, before = lead ++ ['\\'] ∧ Decodes lead decoded) ∧
      (∀ decoded, Decodes body decoded ↔ decoded = value.toList) ∧
      text = quote :: body ++ [quote] := by
  cases h with
  | @text quote body hopens hinside hcloses =>
    refine ⟨quote, body, hopens, fun before after h => ?_, fun decoded => ?_, rfl⟩
    · exact escaped_iff.1 (hinside before after h)
    · rw [decodes_iff, and_iff_right hcloses, String.toList_ofList]

/-- What spells a token is a source text with this token only. -/
theorem Spelled.tokenize {kind : Kind} {lexeme : String} (h : Spelled kind lexeme.toList) :
    ∃ span ending, QuantumScript.tokenize lexeme = .ok ⟨[⟨kind, span, lexeme⟩], ending⟩ := by
  obtain ⟨c, rest, hwritten, hread⟩ := nextLexeme_of_spelled h
  have halone : Alone ⟨kind, ⟨0, 0, 0, 0⟩, lexeme⟩ := ⟨c, rest, hwritten, hread⟩
  exact halone.tokenizeFrom_lexeme .origin

end Token

/-- A string token is a body between two equal quotes, stands for what the body decodes to in one
pass, and ends at the first quote that no backslash consumes. For every text and both quotes the
literal with a backslash before each backslash and each such quote is one token for that text. -/
theorem string_literals :
    (∀ (source : String) (tokens : Tokens), tokenize source = .ok tokens →
      ∀ t ∈ tokens.items, ∀ value, t.kind = .text value →
        ∃ quote body, (quote = '"' ∨ quote = '\x27') ∧
          t.lexeme.toList = quote :: body ++ [quote] ∧
          (∀ decoded, Token.Decodes body decoded ↔ decoded = value.toList) ∧
          ∀ before after, body = before ++ quote :: after →
            ∃ lead decoded, before = lead ++ ['\\'] ∧ Token.Decodes lead decoded) ∧
    ∀ (quote : Char) (value : String), (quote = '"' ∨ quote = '\x27') →
      ∃ span ending, tokenize (Token.literal quote value) =
        .ok ⟨[⟨.text value, span, Token.literal quote value⟩], ending⟩ := by
  constructor
  · intro source tokens haccepted t hmem value hkind
    have hspelled := (Token.readIn_of_tokenizeFrom _ _ tokens haccepted t hmem).alone.spelled
    rw [hkind] at hspelled
    obtain ⟨quote, body, hopens, hinside, hdecoded, hwritten⟩ := hspelled.exists_body
    exact ⟨quote, body, Token.isQuote_iff.1 hopens, hwritten, hdecoded, hinside⟩
  · intro quote value hopens
    exact (Token.spelled_literal (Token.isQuote_iff.2 hopens) value).tokenize

/-- The token for a backslash and both quotes, in single quotes. -/
def bothQuotes : Token :=
  ⟨.text "\\'\"", ⟨0, 7, 1, 1⟩, "'\\\\\\'\"'"⟩

/-- The two backslashes at the front stand for one, and the third consumes the quote after it. -/
theorem string_literals_bothQuotes :
    tokenize bothQuotes.lexeme = .ok ⟨[bothQuotes], ⟨7, 7, 1, 8⟩⟩ ∧
    (∃ quote body, (quote = '"' ∨ quote = '\x27') ∧
      bothQuotes.lexeme.toList = quote :: body ++ [quote] ∧
      (∀ decoded, Token.Decodes body decoded ↔ decoded = "\\'\"".toList) ∧
      ∀ before after, body = before ++ quote :: after →
        ∃ lead decoded, before = lead ++ ['\\'] ∧ Token.Decodes lead decoded) ∧
    ∃ span ending, tokenize (Token.literal '\x27' "\\'\"") =
      .ok ⟨[⟨.text "\\'\"", span, Token.literal '\x27' "\\'\""⟩], ending⟩ := by
  have haccepted : tokenize bothQuotes.lexeme = .ok ⟨[bothQuotes], ⟨7, 7, 1, 8⟩⟩ := by
    with_unfolding_all rfl
  exact ⟨haccepted, string_literals.1 _ _ haccepted bothQuotes List.mem_cons_self _ rfl,
    string_literals.2 _ _ (.inr rfl)⟩

end QuantumScript
