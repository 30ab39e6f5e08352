import QuantumScript.Proofs.Parser.Alike
import QuantumScript.Token.Lexer

/-!
# Texts joined by a line end

A character that belongs to no name, number or symbol divides a text: the tokens before it are read
as if the text ended there. A line end divides every text, ends every comment, and is a token of its
own, so the tokens of two texts joined by a line end are those of the first, the line end, and those
of the second further on (`tokenizeFrom_join`). Where a text stands does not matter to the kinds and
lexemes of its tokens (`tokenizeFrom_sameWords`).
-/

namespace QuantumScript.Token

/-- A token by its kind and its lexeme, without its place. -/
def written (t : Token) : Kind × String :=
  (t.kind, t.lexeme)

/-- Tokens of the same kinds and lexemes in the same order. -/
def SameWords (ts us : List Token) : Prop :=
  ts.map written = us.map written

namespace SameWords

variable {ts us rest : List Token} {t : Token}

/-- Tokens of the same words are of the same kinds. -/
theorem sameKinds (h : SameWords ts us) : SameKinds ts us := by
  have hkinds := congrArg (List.map Prod.fst) h
  rw [List.map_map, List.map_map] at hkinds
  exact hkinds

/-- What has the words of no tokens is none. -/
theorem eq_nil (h : SameWords [] us) : us = [] :=
  List.map_eq_nil_iff.1 h.symm

/-- What has the words of a token and others is such a token and others. -/
theorem exists_cons (h : SameWords (t :: ts) us) :
    ∃ u vs, us = u :: vs ∧ t.kind = u.kind ∧ t.lexeme = u.lexeme ∧ SameWords ts vs := by
  obtain ⟨u, vs, rfl, hu, hs⟩ := List.map_eq_cons_iff.1 h.symm
  exact ⟨u, vs, rfl, (congrArg Prod.fst hu).symm, (congrArg Prod.snd hu).symm, hs.symm⟩

/-- What has the words of tokens one after the other consists of such tokens. -/
theorem exists_append (h : SameWords (ts ++ rest) us) :
    ∃ front back, us = front ++ back ∧ SameWords ts front ∧ SameWords rest back := by
  obtain ⟨front, back, rfl, hfront, hback⟩ :=
    List.map_eq_append_iff.1 (h.symm.trans List.map_append)
  exact ⟨front, back, rfl, hfront.symm, hback.symm⟩

end SameWords

/-! ## One token -/

/-- Whether a character ends every token before it that is no string. -/
def divides (b : Char) : Bool :=
  !continuesName b && Symbol.all.all fun sign => !sign.chars.contains b

variable {b c : Char} {cs more rest : List Char} {l : Lexeme}

/-- A dividing character is no digit. -/
theorem isDigit_of_divides (hb : divides b) : b.isDigit = false := by
  simp only [divides, continuesName, Bool.and_eq_true, Bool.not_eq_true',
    Bool.or_eq_false_iff] at hb
  exact hb.1.2

/-- A dividing character does not continue a name. -/
theorem continuesName_of_divides (hb : divides b) : continuesName b = false := by
  simp only [divides, Bool.and_eq_true, Bool.not_eq_true'] at hb
  exact hb.1

/-- A dividing character belongs to no symbol. -/
theorem not_mem_chars_of_divides (hb : divides b) (sign : Symbol) : b ∉ sign.chars := by
  simp only [divides, Bool.and_eq_true, List.all_eq_true, Bool.not_eq_true',
    List.contains_eq_mem, decide_eq_false_iff_not] at hb
  exact hb.2 sign (by cases sign <;> decide)

/-- A dividing character is no point. -/
theorem ne_dot_of_divides (hb : divides b) : b ≠ '.' := by
  rintro rfl
  exact absurd hb (by decide)

/-- What is taken as long as a test holds ends before a character that fails it. -/
theorem takeWhile_append_of_not {test : Char → Bool} (hb : test b = false) :
    (cs ++ b :: more).takeWhile test = cs.takeWhile test := by
  induction cs with
  | nil => simp [hb]
  | cons c cs ih =>
    rw [List.cons_append, List.takeWhile_cons, List.takeWhile_cons, ih]

/-- What is left after a test held is left together with what follows a character that fails it. -/
theorem dropWhile_append_of_not {test : Char → Bool} (hb : test b = false) :
    (cs ++ b :: more).dropWhile test = cs.dropWhile test ++ b :: more := by
  induction cs with
  | nil => simp [hb]
  | cons c cs ih =>
    rw [List.cons_append, List.dropWhile_cons, List.dropWhile_cons, ih]
    split <;> rfl

/-- A string that is closed is read up to its closing quote, whatever follows. -/
theorem splitString?_append_right {quote : Char} {body after : List Char}
    (h : splitString? quote cs = some (body, after)) (more : List Char) :
    splitString? quote (cs ++ more) = some (body, after ++ more) := by
  -- The last two cases read on behind an escaped character and behind a plain one.
  fun_induction splitString? quote cs generalizing body with
  | case1 => cases h
  | case2 =>
    cases h
    cases more <;> simp [splitString?]
  | case3 => cases h
  | case4 =>
    cases h
    simp [splitString?]
  | case5 d rest hq ih =>
    obtain ⟨⟨inner, last⟩, hi, heq⟩ := Option.map_eq_some_iff.1 h
    cases heq
    rw [List.cons_append, List.cons_append, splitString?, if_neg hq, if_pos rfl, ih hi]
    rfl
  | case6 c d rest hq hb ih =>
    obtain ⟨⟨inner, last⟩, hi, heq⟩ := Option.map_eq_some_iff.1 h
    cases heq
    have hrec := ih hi
    rw [List.cons_append] at hrec
    rw [List.cons_append, List.cons_append, splitString?, if_neg hq, if_neg hb, hrec]
    rfl

/-- The symbol that a text starts with does not reach a dividing character. -/
theorem leading?_append (hb : divides b) :
    Symbol.leading? (cs ++ b :: more) = Symbol.leading? cs := by
  -- A symbol without the character starts the longer text only if it starts the shorter one.
  have hprefix (chars : List Char) (hn : b ∉ chars) :
      chars.isPrefixOf (cs ++ b :: more) = chars.isPrefixOf cs := by
    induction chars generalizing cs with
    | nil => simp
    | cons d chars ih =>
      cases cs with
      | nil =>
        have hne : d ≠ b := by
          rintro rfl
          exact hn (by simp)
        simp [List.isPrefixOf, hne]
      | cons e cs =>
        rw [List.cons_append, List.isPrefixOf_cons_cons, List.isPrefixOf_cons_cons,
          ih fun hmem => hn (List.mem_cons_of_mem d hmem)]
  unfold Symbol.leading?
  congr 1
  funext sign
  exact hprefix sign.chars (not_mem_chars_of_divides hb sign)

/-- A string is read as if the text ended at a character after it. -/
theorem stringLexeme_divides {quote : Char} (h : stringLexeme quote cs = .ok l) :
    stringLexeme quote (cs ++ b :: more) = .ok { l with rest := l.rest ++ b :: more } := by
  unfold stringLexeme at *
  cases hs : splitString? quote cs with
  | none =>
    rw [hs] at h
    cases h
  | some found =>
    rw [hs] at h
    cases h
    rw [splitString?_append_right hs]

/-- Where no point comes first, none does when a dividing character follows. -/
theorem not_dot_append (hb : divides b) (h : ∀ after, rest = '.' :: after → False) :
    ∀ after, rest ++ b :: more = '.' :: after → False := by
  intro after heq
  cases rest with
  | nil =>
    rw [List.nil_append] at heq
    exact ne_dot_of_divides hb (List.cons.inj heq).1
  | cons d rest =>
    rw [List.cons_append] at heq
    obtain ⟨rfl, -⟩ := List.cons.inj heq
    exact h rest rfl

/-- A number is read as if the text ended at a dividing character after it. -/
theorem numberLexeme_divides (hb : divides b) (h : numberLexeme cs = .ok l) :
    numberLexeme (cs ++ b :: more) = .ok { l with rest := l.rest ++ b :: more } := by
  have hd := isDigit_of_divides hb
  unfold numberLexeme at *
  dsimp only at *
  rw [takeWhile_append_of_not hd, dropWhile_append_of_not hd]
  -- A point may follow the digits, with digits behind it, but no second point behind those.
  split at h
  · rename_i after hafter
    rw [hafter, List.cons_append]
    simp only [takeWhile_append_of_not hd, dropWhile_append_of_not hd]
    split at h
    · cases h
    · rename_i hnot
      cases h
      split
      · rename_i tail htail
        exact absurd htail (not_dot_append hb hnot tail)
      · rfl
  · rename_i hnot
    cases h
    split
    · rename_i tail htail
      exact absurd htail (not_dot_append hb hnot tail)
    · rfl

/-- A name is read as if the text ended at a dividing character after it. -/
theorem wordLexeme_divides (hb : divides b) :
    wordLexeme (cs ++ b :: more) =
      { wordLexeme cs with rest := (wordLexeme cs).rest ++ b :: more } := by
  have hn := continuesName_of_divides hb
  unfold wordLexeme
  rw [takeWhile_append_of_not hn, dropWhile_append_of_not hn]

/-- A symbol is read as if the text ended at a dividing character after it. -/
theorem symbolLexeme_divides (hb : divides b) (h : symbolLexeme c cs = .ok l) :
    symbolLexeme c (cs ++ b :: more) = .ok { l with rest := l.rest ++ b :: more } := by
  have hlead : Symbol.leading? (c :: (cs ++ b :: more)) = Symbol.leading? (c :: cs) := by
    rw [← List.cons_append]
    exact leading?_append hb
  unfold symbolLexeme at *
  rw [hlead]
  split at h
  · rename_i sign hs
    cases h
    have hp := List.find?_some hs
    -- The symbol is no longer than the shorter text, so what is dropped lies in it.
    obtain ⟨after, hafter⟩ := List.isPrefixOf_iff_prefix.1 hp
    have hlen : sign.chars.length ≤ (c :: cs).length := by
      rw [← hafter, List.length_append]
      omega
    rw [← List.cons_append, List.drop_append_of_le_length hlen]
  · cases h

/-- A token is read as if the text ended at a dividing character after it. -/
theorem nextLexeme_divides (hb : divides b) (h : nextLexeme c rest = .ok l) :
    nextLexeme c (rest ++ b :: more) = .ok { l with rest := l.rest ++ b :: more } := by
  unfold nextLexeme at *
  -- The first character alone tells which kind of token comes, so both sides take one branch.
  by_cases hn : c = '\n'
  · rw [if_pos hn] at h ⊢
    cases h
    rfl
  rw [if_neg hn] at h ⊢
  by_cases hq : isQuote c
  · rw [if_pos hq] at h ⊢
    exact stringLexeme_divides h
  rw [if_neg hq] at h ⊢
  by_cases hd : c.isDigit
  · rw [if_pos hd] at h ⊢
    exact numberLexeme_divides hb h
  rw [if_neg hd] at h ⊢
  by_cases hs : startsName c
  · rw [if_pos hs] at h ⊢
    cases h
    rw [← List.cons_append, wordLexeme_divides hb]
  · rw [if_neg hs] at h ⊢
    exact symbolLexeme_divides hb h

/-- A gap ends at a line end at the latest. -/
theorem splitGap_newline (comment : Bool) (cs more : List Char) :
    splitGap comment (cs ++ '\n' :: more) =
      ((splitGap comment cs).1, (splitGap comment cs).2 ++ '\n' :: more) := by
  -- A `#` on the way makes the rest of the line a comment, so the flag varies in the induction.
  induction cs generalizing comment with
  | nil => cases comment <;> rfl
  | cons c cs ih =>
    rw [List.cons_append, splitGap, splitGap]
    dsimp only
    rw [ih true, ih false]
    repeat' split
    all_goals rfl

/-! ## All tokens -/

/-- The tokens of a text that is a gap. -/
theorem tokenizeFrom_of_gap {p : Position} {gap : List Char}
    (hg : splitGap false cs = (gap, [])) :
    tokenizeFrom p cs = .ok ⟨[], (p.past gap).spanTo (p.past gap)⟩ := by
  rw [tokenizeFrom]
  split
  · rename_i gap' hg'
    rw [hg] at hg'
    cases hg'
    rfl
  · rename_i gap' c rest hg'
    rw [hg] at hg'
    cases hg'

/-- The tokens of a text with a first token. -/
theorem tokenizeFrom_of_lexeme {p : Position} {gap : List Char}
    (hg : splitGap false cs = (gap, c :: rest)) (hl : nextLexeme c rest = .ok l) :
    tokenizeFrom p cs =
      (tokenizeFrom ((p.past gap).past l.text) l.rest).map fun tokens =>
        { tokens with items := ⟨l.kind, (p.past gap).spanTo ((p.past gap).past l.text),
          String.ofList l.text⟩ :: tokens.items } := by
  rw [tokenizeFrom]
  split
  · rename_i gap' hg'
    rw [hg] at hg'
    cases hg'
  · rename_i gap' c' rest' hg'
    rw [hg] at hg'
    cases hg'
    dsimp only
    split
    · rename_i wrong hw
      rw [hl] at hw
      cases hw
    · rename_i l' hl'
      rw [hl] at hl'
      cases hl'
      cases tokenizeFrom ((p.past gap).past l.text) l.rest <;> rfl

/-- The tokens of a text whose first token is misspelled. -/
theorem tokenizeFrom_of_misspelling {p : Position} {gap : List Char} {wrong : Misspelling}
    (hg : splitGap false cs = (gap, c :: rest)) (hl : nextLexeme c rest = .error wrong) :
    tokenizeFrom p cs =
      .error ⟨wrong.cause, some ((p.past gap).spanTo ((p.past gap).past wrong.text))⟩ := by
  rw [tokenizeFrom]
  split
  · rename_i gap' hg'
    rw [hg] at hg'
    cases hg'
  · rename_i gap' c' rest' hg'
    rw [hg] at hg'
    cases hg'
    dsimp only
    split
    · rename_i wrong' hw
      rw [hl] at hw
      cases hw
      rfl
    · rename_i l' hl'
      rw [hl] at hl'
      cases hl'

/-- The tokens of two texts joined by a line end are those of the first, the line end, and those of
the second, which stands further on. -/
theorem tokenizeFrom_join {p : Position} {tokens : Tokens} (h : tokenizeFrom p cs = .ok tokens) :
    ∃ q line, line.kind = .newline ∧ ∀ more, tokenizeFrom p (cs ++ '\n' :: more) =
      (tokenizeFrom q more).map fun others =>
        { others with items := tokens.items ++ line :: others.items } := by
  -- The induction is on the length of the text: what stands behind a token is shorter.
  induction hn : cs.length using Nat.strongRecOn generalizing cs p tokens with
  | ind n hrec =>
    subst hn
    cases hg : splitGap false cs with
    | mk gap after =>
      cases after with
      | nil =>
        -- Only a gap is left: the line end is the next token, and the second text stands behind it.
        rw [tokenizeFrom_of_gap hg] at h
        cases h
        refine ⟨(p.past gap).past ['\n'],
          ⟨.newline, (p.past gap).spanTo ((p.past gap).past ['\n']), String.ofList ['\n']⟩, rfl,
          fun more => ?_⟩
        have hg' : splitGap false (cs ++ '\n' :: more) = (gap, '\n' :: more) := by
          rw [splitGap_newline, hg]
          rfl
        rw [tokenizeFrom_of_lexeme hg' (l := ⟨.newline, ['\n'], more⟩) rfl]
        rfl
      | cons c rest =>
        cases hl : nextLexeme c rest with
        | error wrong =>
          rw [tokenizeFrom_of_misspelling hg hl] at h
          cases h
        | ok l =>
          rw [tokenizeFrom_of_lexeme hg hl] at h
          cases ho : tokenizeFrom ((p.past gap).past l.text) l.rest with
          | error fault =>
            rw [ho] at h
            cases h
          | ok others =>
            rw [ho] at h
            cases h
            obtain ⟨q, line, hline, hjoin⟩ :=
              hrec _ (length_rest_lt_of_splitGap hg hl) ho rfl
            refine ⟨q, line, hline, fun more => ?_⟩
            have hg' :
                splitGap false (cs ++ '\n' :: more) = (gap, c :: (rest ++ '\n' :: more)) := by
              rw [splitGap_newline, hg]
              rfl
            rw [tokenizeFrom_of_lexeme hg' (nextLexeme_divides (by decide) hl)]
            dsimp only
            rw [hjoin]
            cases tokenizeFrom q more <;> rfl

/-- Where a text stands does not matter to the kinds and lexemes of its tokens, and not to the cause
if it has none. -/
theorem tokenizeFrom_sameWords (p q : Position) (cs : List Char) :
    (∃ tokens tokens', tokenizeFrom p cs = .ok tokens ∧ tokenizeFrom q cs = .ok tokens' ∧
      SameWords tokens.items tokens'.items) ∨
    ∃ fault fault', tokenizeFrom p cs = .error fault ∧ tokenizeFrom q cs = .error fault' ∧
      fault.cause = fault'.cause := by
  -- The position is only carried along, so it may differ from token to token.
  induction hn : cs.length using Nat.strongRecOn generalizing cs p q with
  | ind n hrec =>
    subst hn
    cases hg : splitGap false cs with
    | mk gap after =>
      cases after with
      | nil =>
        rw [tokenizeFrom_of_gap hg, tokenizeFrom_of_gap hg]
        exact .inl ⟨_, _, rfl, rfl, rfl⟩
      | cons c rest =>
        cases hl : nextLexeme c rest with
        | error wrong =>
          rw [tokenizeFrom_of_misspelling hg hl, tokenizeFrom_of_misspelling hg hl]
          exact .inr ⟨_, _, rfl, rfl, rfl⟩
        | ok l =>
          rw [tokenizeFrom_of_lexeme hg hl, tokenizeFrom_of_lexeme hg hl]
          rcases hrec _ (length_rest_lt_of_splitGap hg hl) ((p.past gap).past l.text)
              ((q.past gap).past l.text) l.rest rfl with
            ⟨tokens, tokens', hp, hq, hs⟩ | ⟨fault, fault', hp, hq, hs⟩
          · rw [hp, hq]
            exact .inl ⟨_, _, rfl, rfl, congrArg (List.cons (l.kind, String.ofList l.text)) hs⟩
          · rw [hp, hq]
            exact .inr ⟨_, _, rfl, rfl, hs⟩

/-- The tokens of two texts joined by a line end are those of the first, the line end, and others of
the same words as those of the second. -/
theorem tokenize_join {first second : String} {before after : Tokens}
    (hfirst : tokenize first = .ok before) (hsecond : tokenize second = .ok after) :
    ∃ line moved ending, line.kind = .newline ∧ SameWords after.items moved ∧
      tokenize (first ++ "\n" ++ second) = .ok ⟨before.items ++ line :: moved, ending⟩ := by
  obtain ⟨place, line, hline, hjoin⟩ := tokenizeFrom_join hfirst
  have htext : (first ++ "\n" ++ second).toList = first.toList ++ '\n' :: second.toList := by simp
  rcases tokenizeFrom_sameWords .origin place second.toList with
    ⟨tokens, moved, htokens, hmoved, hwords⟩ | ⟨fault, _, hfault, -⟩
  · cases htokens.symm.trans hsecond
    refine ⟨line, moved.items, moved.ending, hline, hwords, ?_⟩
    rw [tokenize, htext, hjoin, hmoved]
    rfl
  · cases hfault.symm.trans hsecond

end QuantumScript.Token
