import QuantumScript.Proofs.Token.Alone
import QuantumScript.Proofs.Token.Numeral

/-!
# Misspelled texts

A text that has no tokens is misspelled at one place, and everything before it can be read: cutting
a text changes no token before the cut (`exists_misspelling`). What is wrong there is one of four
slips, which exclude each other because each has its own cause (`Slip.Shows.eq_named`): a string
that is not closed, a number with a second point, a mark `!` without `=`, and a character that starts
no token. `tokenize_slip` says so of every text.
-/

namespace QuantumScript

namespace Token

variable {c : Char} {cs rest gap kept dropped text : List Char} {wrong : Misspelling}

/-! ## Slips -/

/-- Some token starts with a character. -/
def StartsToken (c : Char) : Prop :=
  ∃ kind text, Spelled kind (c :: text)

/-- What may be wrong where no token can be read. -/
inductive Slip
  /-- A string is not closed. -/
  | openString
  /-- A number has a second point. -/
  | secondPoint
  /-- A mark `!` has no `=` behind it. -/
  | loneMark
  /-- A character starts no token. -/
  | stranger
deriving DecidableEq

/-- A slip is there: a cause is given for a piece of text with other text after it. -/
def Slip.Shows (cause : Cause) (piece after : List Char) : Slip → Prop
  | openString =>
    cause = .unterminatedString ∧ ∃ quote rest, piece = quote :: rest ∧ isQuote quote = true ∧
      QuotesEscaped quote rest ∧ after = []
  | secondPoint =>
    cause = .invalidNumber (String.ofList piece) ∧ ∃ whole fraction, whole ≠ [] ∧
      (∀ d ∈ whole ++ fraction, d.isDigit = true) ∧ piece = whole ++ '.' :: fraction ++ ['.']
  | loneMark =>
    cause = .unexpectedCharacter '!' ∧ piece = ['!'] ∧ ∀ more, after ≠ '=' :: more
  | stranger => ∃ c, cause = .unexpectedCharacter c ∧ piece = [c] ∧ ¬ StartsToken c

/-- A mark `!` starts a token. -/
theorem startsToken_mark : StartsToken '!' :=
  ⟨.symbol .notEqual, ['='], .symbol .notEqual⟩

/-- The slip that a cause is given for. -/
def Slip.named : Cause → Slip
  | .unterminatedString => openString
  | .invalidNumber _ => secondPoint
  | .unexpectedCharacter c => if c = '!' then loneMark else stranger
  | _ => stranger

/-- A slip is there only for its cause. -/
theorem Slip.Shows.eq_named {slip : Slip} {cause : Cause} {piece after : List Char}
    (h : slip.Shows cause piece after) : slip = named cause := by
  cases slip with
  | openString | secondPoint | loneMark =>
    rw [h.1]
    rfl
  | stranger =>
    obtain ⟨c, rfl, -, hnot⟩ := h
    have hmark : c ≠ '!' := by
      rintro rfl
      exact hnot startsToken_mark
    rw [named, if_neg hmark]

/-- Each symbol but the one that starts with `!` starts with a symbol of one character. -/
theorem exists_single (sign : Symbol) :
    sign = .notEqual ∨ ∃ single ∈ Symbol.all, single.chars = sign.chars.take 1 := by
  cases sign <;> decide

/-- Where a symbol starts, so does one of one character, but for a mark `!`. -/
theorem single_of_isPrefix {sign : Symbol} (h : sign.chars <+: c :: text) :
    c = '!' ∨ ∃ single ∈ Symbol.all, single.chars = [c] := by
  obtain ⟨more, hmore⟩ := h
  rcases exists_single sign with rfl | ⟨single, hmem, hsingle⟩
  · exact .inl (List.cons.inj hmore).1.symm
  · refine .inr ⟨single, hmem, ?_⟩
    cases hchars : sign.chars with
    | nil => cases sign <;> cases hchars
    | cons d chars =>
      rw [hchars] at hmore hsingle
      rw [hsingle, ← (List.cons.inj hmore).1]
      rfl

/-- A symbol that a text starts with is found. -/
theorem leading?_eq_none_iff :
    Symbol.leading? cs = none ↔ ∀ sign ∈ Symbol.all, ¬ sign.chars <+: cs := by
  simp only [Symbol.leading?, List.find?_eq_none, List.isPrefixOf_iff_prefix]

/-! ## What is wrong at the front of a text -/

/-- Where a number cannot be read, it has a second point. -/
theorem secondPoint_of_numberLexeme (hc : c.isDigit = true)
    (h : numberLexeme (c :: rest) = .error wrong) :
    ∃ after, c :: rest = wrong.text ++ after ∧
      Slip.secondPoint.Shows wrong.cause wrong.text after := by
  obtain ⟨after, hafter⟩ := numberLexeme_isPrefix h
  refine ⟨after, hafter.symm, ?_⟩
  have hdigits (cs : List Char) : ∀ d ∈ cs.takeWhile Char.isDigit, d.isDigit = true :=
    List.all_eq_true.1 List.all_takeWhile
  have hwhole : (c :: rest).takeWhile Char.isDigit ≠ [] := by simp [hc]
  unfold numberLexeme at h
  dsimp only at h
  split at h
  · split at h
    · cases h
      exact ⟨rfl, _, _, hwhole, List.forall_mem_append.2 ⟨hdigits _, hdigits _⟩, rfl⟩
    · cases h
  · cases h

/-- Where a string cannot be read, it is not closed. -/
theorem openString_of_stringLexeme (hc : isQuote c = true)
    (h : stringLexeme c rest = .error wrong) :
    ∃ after, c :: rest = wrong.text ++ after ∧
      Slip.openString.Shows wrong.cause wrong.text after := by
  unfold stringLexeme at h
  split at h
  · cases h
  · rename_i hsplit
    cases h
    have hescaped := (splitString?_eq_none_iff (ne_backslash_of_isQuote hc)).1 hsplit
    exact ⟨[], (List.append_nil _).symm, rfl, c, rest, rfl, hc, hescaped, rfl⟩

/-- Where no token can be read, there is a slip. -/
theorem exists_slip (h : nextLexeme c rest = .error wrong) :
    ∃ after slip, c :: rest = wrong.text ++ after ∧
      Slip.Shows wrong.cause wrong.text after slip := by
  have hlexeme := h
  unfold nextLexeme at h
  by_cases hn : c = '\n'
  · rw [if_pos hn] at h
    cases h
  rw [if_neg hn] at h
  by_cases hq : isQuote c
  · rw [if_pos hq] at h
    obtain ⟨after, hafter, hshows⟩ := openString_of_stringLexeme hq h
    exact ⟨after, .openString, hafter, hshows⟩
  rw [if_neg hq] at h
  by_cases hd : c.isDigit
  · rw [if_pos hd] at h
    obtain ⟨after, hafter, hshows⟩ := secondPoint_of_numberLexeme hd h
    exact ⟨after, .secondPoint, hafter, hshows⟩
  rw [if_neg hd] at h
  by_cases hs : startsName c
  · rw [if_pos hs] at h
    cases h
  rw [if_neg hs] at h
  unfold symbolLexeme at h
  split at h
  · cases h
  · rename_i hnone
    cases h
    rw [leading?_eq_none_iff] at hnone
    by_cases hc : c = '!'
    · subst hc
      refine ⟨rest, .loneMark, rfl, rfl, rfl, ?_⟩
      rintro more rfl
      exact hnone .notEqual (by decide) ⟨more, rfl⟩
    · refine ⟨rest, .stranger, rfl, c, rfl, rfl, ?_⟩
      -- A token that starts with the character would be a symbol, and so would its first character.
      rintro ⟨kind, text, hspelled⟩
      have hread := spelled_iff.1 hspelled
      rw [nextLexeme, if_neg hn, if_neg hq, if_neg hd, if_neg hs, symbolLexeme] at hread
      split at hread
      · rename_i sign hsign
        have hleads := List.find?_some hsign
        rcases single_of_isPrefix (List.isPrefixOf_iff_prefix.1 hleads) with
          hmark | ⟨single, hmem, hsingle⟩
        · exact hc hmark
        · exact hnone single hmem (hsingle ▸ ⟨rest, rfl⟩)
      · cases hread

/-! ## What stands before it -/

/-- Whether a character ends a gap depends on nothing behind it. -/
theorem splitGap_cons (comment : Bool) (c : Char) :
    (∀ cs, splitGap comment (c :: cs) = ([], c :: cs)) ∨
      ∃ next, ∀ cs, splitGap comment (c :: cs) =
        (c :: (splitGap next cs).1, (splitGap next cs).2) := by
  simp only [splitGap]
  split
  · split
    · exact .inl fun _ => rfl
    · exact .inr ⟨true, fun _ => rfl⟩
  · split
    · exact .inr ⟨false, fun _ => rfl⟩
    · split
      · exact .inr ⟨true, fun _ => rfl⟩
      · exact .inl fun _ => rfl

/-- A gap is split off in the same way when the text is cut behind it. -/
theorem splitGap_cut {comment : Bool} (h : splitGap comment cs = (gap, kept ++ dropped)) :
    splitGap comment (gap ++ kept) = (gap, kept) := by
  -- A `#` on the way makes the rest of the line a comment, so the flag varies in the induction.
  induction cs generalizing comment gap with
  | nil =>
    obtain ⟨rfl, hnil⟩ := Prod.mk.inj h
    obtain ⟨rfl, -⟩ := List.append_eq_nil_iff.1 hnil.symm
    rfl
  | cons c cs ih =>
    rcases splitGap_cons comment c with hends | ⟨next, hgoes⟩
    · rw [hends] at h
      obtain ⟨rfl, hrest⟩ := Prod.mk.inj h
      cases kept with
      | nil => rfl
      | cons d kept =>
        obtain ⟨rfl, -⟩ := List.cons.inj hrest
        exact hends kept
    · rw [hgoes] at h
      obtain ⟨rfl, hrest⟩ := Prod.mk.inj h
      have hcut : splitGap next ((splitGap next cs).1 ++ kept) = ((splitGap next cs).1, kept) :=
        ih (Prod.ext rfl hrest)
      rw [List.cons_append, hgoes, hcut]

/-- A text that cannot be read is misspelled behind a part that can be read, wherever that
stands. -/
theorem exists_misspelling (p : Position) (cs : List Char) :
    ∀ fault, tokenizeFrom p cs = .error fault → ∃ before c rest wrong span,
      cs = before ++ c :: rest ∧ nextLexeme c rest = .error wrong ∧
      fault = ⟨wrong.cause, some span⟩ ∧ span.start = p.offset + byteSize before ∧
      span.stop = p.offset + byteSize (before ++ wrong.text) ∧
      ∀ q, ∃ tokens, tokenizeFrom q before = .ok tokens := by
  fun_induction tokenizeFrom p cs with
  | case1 => rintro _ ⟨⟩
  | case2 p cs gap c rest hgap start wrong hwrong =>
    rintro _ ⟨⟩
    have hcs := splitGap_append false cs
    rw [hgap] at hcs
    have hstart : start.offset = p.offset + byteSize gap := (p.past_eq gap).1
    have hstop := (start.past_eq wrong.text).1
    refine ⟨gap, c, rest, wrong, _, hcs.symm, hwrong, rfl, hstart, ?_, fun q => ?_⟩
    · show (start.past wrong.text).offset = _
      rw [hstop, hstart, byteSize_append, Nat.add_assoc]
    · rw [← List.nil_append (c :: rest)] at hgap
      have hcut := splitGap_cut hgap
      rw [List.append_nil] at hcut
      exact ⟨_, tokenizeFrom_of_gap hcut⟩
  | case3 p cs gap c rest hgap start l hl _ stop fault hfault ih =>
    rintro _ ⟨⟩
    obtain ⟨before, d, after, wrong, span, hrest, hwrong, rfl, hstart, hstop, hbefore⟩ :=
      ih _ hfault
    have hcs := splitGap_append false cs
    rw [hgap] at hcs
    have hoffset : stop.offset = p.offset + byteSize (gap ++ l.text) := by
      rw [(start.past_eq l.text).1, (p.past_eq gap).1, byteSize_append, Nat.add_assoc]
    refine ⟨gap ++ l.text ++ before, d, after, wrong, span, ?_, hwrong, rfl, ?_, ?_, fun q => ?_⟩
    · calc cs = gap ++ (c :: rest) := hcs.symm
        _ = gap ++ (l.text ++ l.rest) := by rw [nextLexeme_append hl]
        _ = gap ++ l.text ++ before ++ d :: after := by simp only [hrest, List.append_assoc]
    · rw [hstart, hoffset, byteSize_append _ before, Nat.add_assoc]
    · rw [hstop, hoffset, List.append_assoc (gap ++ l.text), byteSize_append _ (before ++ _),
        Nat.add_assoc]
    · -- The gap and the first token are read as before, and so is what follows them.
      have hread : nextLexeme c rest = .ok ⟨l.kind, l.text, before ++ d :: after⟩ := by
        rw [hl, ← hrest]
      obtain ⟨more, htext, hcut⟩ := exists_cut hread
      have hwhole : c :: rest = c :: more ++ d :: after := by
        rw [← nextLexeme_append hread, ← htext, List.append_assoc]
      rw [hwhole] at hgap
      have hfirst := tokenizeFrom_of_lexeme (p := q) (splitGap_cut hgap) hcut
      obtain ⟨tokens, htokens⟩ := hbefore ((q.past gap).past l.text)
      dsimp only at hfirst
      rw [htokens, ← htext, ← List.append_assoc] at hfirst
      exact ⟨_, hfirst⟩
  | case4 => rintro _ ⟨⟩

end Token

/-- A text without tokens has a part that can be read, and then just one slip. Scanning its numbers
one character at a time finds the same as reading them, and no parser that accepts what spells a
number refuses what is scanned: the only slip in a number is a second point. -/
theorem tokenize_slip (source : String) :
    (∀ fault, tokenize source = .error fault → ∃ span before piece after,
      fault.span = some span ∧ source.toList = before ++ piece ++ after ∧
      span.start = byteSize before ∧ span.stop = byteSize (before ++ piece) ∧
      (∃ tokens, tokenize (String.ofList before) = .ok tokens) ∧
      ∃ slip, Token.Slip.Shows fault.cause piece after slip ∧
        ∀ other, Token.Slip.Shows fault.cause piece after other → other = slip) ∧
    (∀ c rest, c.isDigit = true →
      Token.scanNumber Decimal.read? false [] (c :: rest) = Token.numberLexeme (c :: rest)) ∧
    ∀ parse? : String → Option Float,
      (∀ value text, Token.Spelled (.number value) text →
        (parse? (String.ofList text)).isSome) →
      ∀ c rest wrong, c.isDigit = true →
        Token.scanNumber parse? false [] (c :: rest) = .error wrong →
        ∃ after, c :: rest = wrong.text ++ after ∧
          Token.Slip.secondPoint.Shows wrong.cause wrong.text after := by
  refine ⟨fun fault h => ?_, fun c rest hc => Token.scanNumber_reads hc,
    fun parse? hparse c rest wrong hc h => ?_⟩
  · obtain ⟨before, c, rest, wrong, span, hsource, hwrong, rfl, hstart, hstop, hbefore⟩ :=
      Token.exists_misspelling .origin source.toList fault h
    obtain ⟨after, slip, hafter, hshows⟩ := Token.exists_slip hwrong
    rw [hafter, ← List.append_assoc] at hsource
    refine ⟨span, before, wrong.text, after, rfl, hsource, ?_, ?_, ?_, slip, hshows, ?_⟩
    · rw [hstart]
      exact Nat.zero_add _
    · rw [hstop]
      exact Nat.zero_add _
    · rw [tokenize, String.toList_ofList]
      exact hbefore .origin
    · intro other hother
      rw [hother.eq_named, hshows.eq_named]
  · exact Token.secondPoint_of_numberLexeme hc (Token.numberLexeme_of_scanNumber hparse hc h)

/-- What is wrong with a text that has a number with two points behind a name. -/
def pointsFault : Fault :=
  ⟨.invalidNumber "1.2.", some ⟨2, 6, 1, 3⟩⟩

/-- The name before the number can be read, and the slip is the second point, also for a scanner. -/
theorem tokenize_slip_points :
    tokenize "x 1.2.3" = .error pointsFault ∧
      (∃ before piece after, "x 1.2.3".toList = before ++ piece ++ after ∧
        byteSize before = 2 ∧ byteSize (before ++ piece) = 6 ∧
        (∃ tokens, tokenize (String.ofList before) = .ok tokens) ∧
        Token.Slip.secondPoint.Shows pointsFault.cause piece after) ∧
      ∃ wrong after, Token.scanNumber Decimal.read? false [] "1.2.3".toList = .error wrong ∧
        Token.Slip.secondPoint.Shows wrong.cause wrong.text after := by
  have hfault : tokenize "x 1.2.3" = .error pointsFault := by
    with_unfolding_all rfl
  have hscan : Token.scanNumber Decimal.read? false [] "1.2.3".toList =
      .error ⟨.invalidNumber "1.2.", "1.2.".toList⟩ := by
    with_unfolding_all rfl
  obtain ⟨hslip, -, hrefused⟩ := tokenize_slip "x 1.2.3"
  obtain ⟨span, before, piece, after, hspan, hsource, hstart, hstop, hbefore, slip, hshows, -⟩ :=
    hslip _ hfault
  cases hspan
  obtain rfl : slip = .secondPoint := hshows.eq_named
  have hread (value : Float) (text : List Char) (h : Token.Spelled (.number value) text) :
      (Decimal.read? (String.ofList text)).isSome := by
    rw [Token.read?_of_spelled h]
    rfl
  obtain ⟨more, -, hpoint⟩ := hrefused Decimal.read? hread '1' _ _ (by decide) hscan
  exact ⟨hfault, ⟨before, piece, after, hsource, hstart.symm, hstop.symm, hbefore, hshows⟩,
    _, more, hscan, hpoint⟩

end QuantumScript
