import QuantumScript.Proofs.Token.Spelling

/-!
# Numbers scanned one character at a time

`numberLexeme` takes digits, at most one point and digits, and their value is known. A scanner may
also go through digits and points one by one and give what it has taken to a parser of numbers,
which might refuse it (`scanNumber`). The two find the same (`scanNumber_reads`), because the reader
of numbers accepts whatever spells one (`read?_of_spelled`). No parser that does so ever refuses
what is scanned: only a second point is an error (`numberLexeme_of_scanNumber`).
-/

namespace QuantumScript

namespace Token

variable {c : Char} {cs rest text taken whole fraction digits : List Char} {wrong : Misspelling}
  {parse? : String → Option Float}

/-! ## Scanning -/

/-- The number that a text is parsed as, which a parser may refuse. -/
def parsedNumber (parse? : String → Option Float) (text after : List Char) :
    Except Misspelling Lexeme :=
  match parse? (String.ofList text) with
  | some value => .ok ⟨.number value, text, after⟩
  | none => .error ⟨.invalidNumber (String.ofList text), text⟩

/-- The number at the front of a text, scanned one character at a time: digits and points are taken,
up to the second point, and what is taken is parsed. -/
def scanNumber (parse? : String → Option Float) (seen : Bool) (taken : List Char) :
    List Char → Except Misspelling Lexeme
  | [] => parsedNumber parse? taken []
  | c :: rest =>
    if c.isDigit then scanNumber parse? seen (taken ++ [c]) rest
    else if c = '.' then
      if seen then .error ⟨.invalidNumber (String.ofList (taken ++ [c])), taken ++ [c]⟩
      else scanNumber parse? true (taken ++ [c]) rest
    else parsedNumber parse? taken (c :: rest)

/-- Scanning takes all digits at the front. -/
theorem scanNumber_digits (seen : Bool) (taken cs : List Char) :
    scanNumber parse? seen taken cs =
      scanNumber parse? seen (taken ++ cs.takeWhile Char.isDigit) (cs.dropWhile Char.isDigit) := by
  induction cs generalizing taken with
  | nil => rw [List.takeWhile_nil, List.dropWhile_nil, List.append_nil]
  | cons c cs ih =>
    by_cases hc : c.isDigit
    · rw [scanNumber, if_pos hc, ih, List.takeWhile_cons_of_pos hc, List.dropWhile_cons_of_pos hc,
        List.append_assoc, List.singleton_append]
    · rw [List.takeWhile_cons_of_neg hc, List.dropWhile_cons_of_neg hc, List.append_nil]

/-- What comes after the digits at the front is no digit. -/
theorem not_isDigit_of_dropWhile (h : cs.dropWhile Char.isDigit = c :: rest) :
    ¬ c.isDigit = true := by
  have hhead := List.head?_dropWhile_not Char.isDigit cs
  rw [h] at hhead
  simpa using hhead

/-- Scanning parses what it has taken where neither a digit nor a point follows the digits. -/
theorem scanNumber_stop (seen : Bool) (h : ∀ rest, cs.dropWhile Char.isDigit ≠ '.' :: rest) :
    scanNumber parse? seen taken (cs.dropWhile Char.isDigit) =
      parsedNumber parse? taken (cs.dropWhile Char.isDigit) := by
  cases hrest : cs.dropWhile Char.isDigit with
  | nil => rfl
  | cons c rest =>
    have hdot : c ≠ '.' := by
      rintro rfl
      exact h rest hrest
    rw [scanNumber, if_neg (not_isDigit_of_dropWhile hrest), if_neg hdot]

/-- Scanning takes the first point and the digits behind it. -/
theorem scanNumber_point (hpoint : cs.dropWhile Char.isDigit = '.' :: rest) :
    scanNumber parse? false [] cs =
      scanNumber parse? true (cs.takeWhile Char.isDigit ++ '.' :: rest.takeWhile Char.isDigit)
        (rest.dropWhile Char.isDigit) := by
  have htext : cs.takeWhile Char.isDigit ++ ['.'] ++ rest.takeWhile Char.isDigit =
      cs.takeWhile Char.isDigit ++ '.' :: rest.takeWhile Char.isDigit := by
    rw [List.append_assoc, List.singleton_append]
  rw [scanNumber_digits, List.nil_append, hpoint, scanNumber, if_neg (by decide), if_pos rfl,
    if_neg Bool.false_ne_true, scanNumber_digits, htext]

/-- Scanning a number finds what reading it finds, but for the value, which it leaves to the
parser. -/
theorem scanNumber_eq (parse? : String → Option Float) (cs : List Char) :
    scanNumber parse? false [] cs =
      match numberLexeme cs with
      | .ok l => parsedNumber parse? l.text l.rest
      | .error wrong => .error wrong := by
  cases hread : numberLexeme cs with
  | ok l =>
    unfold numberLexeme at hread
    dsimp only at hread ⊢
    split at hread
    · rename_i hpoint
      split at hread
      · cases hread
      · rename_i hnot
        cases hread
        rw [scanNumber_point hpoint, scanNumber_stop true hnot]
    · rename_i hnot
      cases hread
      rw [scanNumber_digits, List.nil_append, scanNumber_stop false hnot]
  | error wrong =>
    unfold numberLexeme at hread
    dsimp only at hread ⊢
    split at hread
    · rename_i hpoint
      split at hread
      · rename_i hagain
        cases hread
        rw [scanNumber_point hpoint, hagain, scanNumber, if_neg (by decide), if_pos rfl, if_pos rfl]
      · cases hread
    · cases hread

/-- A number that is read is spelled by its characters. -/
theorem spelled_of_numberLexeme {l : Lexeme} (hc : c.isDigit = true)
    (h : numberLexeme (c :: rest) = .ok l) :
    ∃ value, l.kind = .number value ∧ Spelled (.number value) l.text := by
  have hcontinues : continuesName c = true := by rw [continuesName, hc, Bool.or_true]
  obtain ⟨hn, hq⟩ := unquoted_of_continuesName hcontinues
  have hread : nextLexeme c rest = .ok l := by
    rw [nextLexeme, if_neg hn, hq, if_pos hc, if_neg Bool.false_ne_true, h]
  have hspelled := spelled_of_nextLexeme hread
  have hkind : ∃ value, l.kind = .number value := by
    unfold numberLexeme at h
    dsimp only at h
    split at h
    · split at h <;> cases h
      exact ⟨_, rfl⟩
    · cases h
      exact ⟨_, rfl⟩
  obtain ⟨value, hkind⟩ := hkind
  exact ⟨value, hkind, hkind ▸ hspelled⟩

/-! ## The reader of numbers -/

/-- A digit has no other letter case. -/
theorem toLower_of_isDigit (h : c.isDigit = true) : c.toLower = c := by
  have hdigit : c.toNat ≤ '9'.toNat := by
    simp only [Char.isDigit, Bool.and_eq_true, decide_eq_true_eq] at h
    exact h.2
  unfold Char.toLower
  refine dif_neg fun hupper => ?_
  have hle : 'A'.toNat ≤ c.toNat := hupper.1
  exact absurd (Nat.le_trans hle hdigit) (by decide)

/-- A text that starts with a digit has no sign, and it is not the name of a number: what is read
are the digits and the power of ten. -/
theorem read?_of_isDigit (hc : c.isDigit = true)
    (hsplit : Decimal.splitMantissa (c :: rest) = (whole, fraction, [])) (hwhole : whole ≠ []) :
    Decimal.read? (String.ofList (c :: rest)) =
      some (Decimal.nearest (Decimal.digitsValue 0 (whole ++ fraction)) (-fraction.length)) := by
  have hname (word : String) (d : Char) (more : List Char) (hword : word.toList = d :: more)
      (hd : d.isDigit = false) : String.ofList ((c :: rest).map Char.toLower) ≠ word := by
    rintro rfl
    rw [String.toList_ofList, List.map_cons, toLower_of_isDigit hc] at hword
    rw [(List.cons.inj hword).1, hd] at hc
    cases hc
  have hunsigned : Decimal.read? (String.ofList (c :: rest)) = Decimal.unsigned? (c :: rest) := by
    unfold Decimal.read?
    rw [String.toList_ofList]
    split
    · rename_i heq
      rw [(List.cons.inj heq).1] at hc
      cases hc
    · rename_i heq
      rw [(List.cons.inj heq).1] at hc
      cases hc
    · rfl
  rw [hunsigned, Decimal.unsigned?]
  dsimp only
  have hinf := hname "inf" 'i' ['n', 'f'] rfl rfl
  have hinfinity := hname "infinity" 'i' ['n', 'f', 'i', 'n', 'i', 't', 'y'] rfl rfl
  have hnan := hname "nan" 'n' ['a', 'n'] rfl rfl
  rw [decide_eq_false hinf, decide_eq_false hinfinity, Bool.or_self, if_neg Bool.false_ne_true,
    if_neg hnan, hsplit]
  simp [hwhole, Decimal.power?]

/-- Digits are all of the mantissa. -/
theorem splitMantissa_whole (h : ∀ d ∈ digits, d.isDigit = true) :
    Decimal.splitMantissa digits = (digits, [], []) := by
  have htake := List.takeWhile_eq_self_iff.2 h
  have hdrop := List.dropWhile_eq_nil_iff.2 h
  simp only [Decimal.splitMantissa, htake, hdrop]

/-- Digits, a point and digits are all of the mantissa. -/
theorem splitMantissa_point (h : ∀ d ∈ whole ++ fraction, d.isDigit = true) :
    Decimal.splitMantissa (whole ++ '.' :: fraction) = (whole, fraction, []) := by
  obtain ⟨hwhole, hfraction⟩ := List.forall_mem_append.1 h
  have htake := List.takeWhile_eq_self_iff.2 hfraction
  have hdrop := List.dropWhile_eq_nil_iff.2 hfraction
  have hstop : ('.' :: fraction).dropWhile Char.isDigit = '.' :: fraction :=
    List.dropWhile_cons_of_neg (by decide)
  have hnone : ('.' :: fraction).takeWhile Char.isDigit = [] :=
    List.takeWhile_cons_of_neg (by decide)
  rw [Decimal.splitMantissa, List.dropWhile_append_of_pos hwhole, hstop,
    List.takeWhile_append_of_pos hwhole, hnone, List.append_nil]
  simp only [htake, hdrop]

/-- The reader of numbers accepts what spells a number, and finds its value. -/
theorem read?_of_spelled {value : Float} (h : Spelled (.number value) text) :
    Decimal.read? (String.ofList text) = some value := by
  cases h with
  | whole written decimal =>
    obtain ⟨c, rest, rfl⟩ := List.exists_cons_of_ne_nil written
    rw [read?_of_isDigit (decimal c (by simp)) (splitMantissa_whole decimal) written,
      List.append_nil]
    rfl
  | @point whole fraction written decimal =>
    obtain ⟨c, rest, rfl⟩ := List.exists_cons_of_ne_nil written
    exact read?_of_isDigit (decimal c (by simp)) (splitMantissa_point decimal) written

/-! ## No number is refused -/

/-- A number that is taken from the front of a text is not refused. -/
theorem parsedNumber_of_spelled {value : Float} (h : parse? (String.ofList text) = some value) :
    parsedNumber parse? text rest = .ok ⟨.number value, text, rest⟩ := by
  rw [parsedNumber, h]

/-- Where scanning a number fails, so does reading it, if the parser accepts what spells a
number. -/
theorem numberLexeme_of_scanNumber
    (hparse : ∀ value text, Spelled (.number value) text → (parse? (String.ofList text)).isSome)
    (hc : c.isDigit = true) (h : scanNumber parse? false [] (c :: rest) = .error wrong) :
    numberLexeme (c :: rest) = .error wrong := by
  rw [scanNumber_eq] at h
  cases hread : numberLexeme (c :: rest) with
  | ok l =>
    obtain ⟨value, -, hspelled⟩ := spelled_of_numberLexeme hc hread
    obtain ⟨parsed, hparsed⟩ := Option.isSome_iff_exists.1 (hparse value l.text hspelled)
    rw [hread] at h
    dsimp only at h
    rw [parsedNumber_of_spelled hparsed] at h
    cases h
  | error other =>
    rw [hread] at h
    cases h
    rfl

/-- Scanning a number and reading it find the same. -/
theorem scanNumber_reads (hc : c.isDigit = true) :
    scanNumber Decimal.read? false [] (c :: rest) = numberLexeme (c :: rest) := by
  rw [scanNumber_eq]
  cases hread : numberLexeme (c :: rest) with
  | ok l =>
    obtain ⟨value, hkind, hspelled⟩ := spelled_of_numberLexeme hc hread
    dsimp only
    rw [parsedNumber_of_spelled (read?_of_spelled hspelled), ← hkind]
  | error wrong => rfl

end Token

end QuantumScript
