import QuantumScript.Decimal.Reader
import QuantumScript.Fault
import QuantumScript.Text.Alphabetic

/-!
# From text to tokens

A source text is a sequence of tokens with gaps between them. A gap is made of spaces, tabs,
carriage returns and comments, which run from a `#` to the end of the line. Each token is the
longest piece of text that spells one.

`nextLexeme` reads one token from the front of a text, and `tokenize` reads them all and gives each
the region it covers.
-/

namespace QuantumScript

namespace Token

/-- The gap at the front of a text, and what follows it; `comment` says whether the text starts
inside a comment. -/
def splitGap (comment : Bool) : List Char → List Char × List Char
  | [] => ([], [])
  | c :: rest =>
    let taken (comment : Bool) : List Char × List Char :=
      let (gap, after) := splitGap comment rest
      (c :: gap, after)
    if comment then if c = '\n' then ([], c :: rest) else taken true
    else if c = ' ' || c = '\t' || c = '\r' then taken false
    else if c = '#' then taken true
    else ([], c :: rest)

/-- Whether a character may start a name. -/
def startsName (c : Char) : Bool :=
  Text.isAlphabetic c || c = '_'

/-- Whether a character may continue a name. -/
def continuesName (c : Char) : Bool :=
  startsName c || c.isDigit

/-- Whether a character opens a string. -/
def isQuote (c : Char) : Bool :=
  c = '"' || c = '\x27'

/-- What a backslash and a character stand for in a string. -/
def unescape (c : Char) : Char :=
  if c = 'n' then '\n' else if c = 't' then '\t' else c

/-- The text that the body of a string stands for. -/
def decodeBody : List Char → List Char
  | [] => []
  | [c] => [c]
  | c :: d :: rest =>
    if c = '\\' then unescape d :: decodeBody rest else c :: decodeBody (d :: rest)

/-- The body of a string and what follows its closing quote. A quote after a backslash belongs to
the body. -/
def splitString? (quote : Char) : List Char → Option (List Char × List Char)
  | [] => none
  | [c] => if c = quote then some ([], []) else none
  | c :: d :: rest =>
    if c = quote then some ([], d :: rest)
    else if c = '\\' then
      (splitString? quote rest).map fun (body, after) => (c :: d :: body, after)
    else (splitString? quote (d :: rest)).map fun (body, after) => (c :: body, after)

/-- A token without its place: its kind, the characters it was read from, and the text after it. -/
structure Lexeme where
  /-- What it is. -/
  kind : Kind
  /-- Its characters. -/
  text : List Char
  /-- The text after it. -/
  rest : List Char

/-- A piece of text that spells no token. -/
structure Misspelling where
  /-- What is wrong with it. -/
  cause : Cause
  /-- Its characters. -/
  text : List Char

/-- The string whose opening quote is read already. -/
def stringLexeme (quote : Char) (cs : List Char) : Except Misspelling Lexeme :=
  match splitString? quote cs with
  | some (body, after) =>
    .ok ⟨.text (String.ofList (decodeBody body)), quote :: body ++ [quote], after⟩
  | none => .error ⟨.unterminatedString, quote :: cs⟩

/-- The number at the front of a text that starts with a digit: digits with at most one point. -/
def numberLexeme (cs : List Char) : Except Misspelling Lexeme :=
  let whole := cs.takeWhile Char.isDigit
  match cs.dropWhile Char.isDigit with
  | '.' :: rest =>
    let fraction := rest.takeWhile Char.isDigit
    let text := whole ++ '.' :: fraction
    match rest.dropWhile Char.isDigit with
    | '.' :: _ =>
      let text := text ++ ['.']
      .error ⟨.invalidNumber (String.ofList text), text⟩
    | rest =>
      .ok ⟨.number (Decimal.nearest (Decimal.digitsValue 0 (whole ++ fraction)) (-fraction.length)),
        text, rest⟩
  | rest => .ok ⟨.number (Decimal.nearest (Decimal.digitsValue 0 whole) 0), whole, rest⟩

/-- The name or keyword at the front of a text. -/
def wordLexeme (cs : List Char) : Lexeme :=
  let text := cs.takeWhile continuesName
  let word := String.ofList text
  let kind :=
    match Keyword.ofWord? word with
    | some keyword => Kind.keyword keyword
    | none => Kind.name word
  ⟨kind, text, cs.dropWhile continuesName⟩

/-- The symbol at the front of a text that starts with `c`. -/
def symbolLexeme (c : Char) (rest : List Char) : Except Misspelling Lexeme :=
  match Symbol.leading? (c :: rest) with
  | some sign => .ok ⟨.symbol sign, sign.chars, (c :: rest).drop sign.chars.length⟩
  | none => .error ⟨.unexpectedCharacter c, [c]⟩

/-- The token at the front of a text that starts with `c` and no gap. -/
def nextLexeme (c : Char) (rest : List Char) : Except Misspelling Lexeme :=
  if c = '\n' then .ok ⟨.newline, [c], rest⟩
  else if isQuote c then stringLexeme c rest
  else if c.isDigit then numberLexeme (c :: rest)
  else if startsName c then .ok (wordLexeme (c :: rest))
  else symbolLexeme c rest

/-! ## A token takes its characters from the front of the text -/

/-- A gap and what follows it make up the text. -/
theorem splitGap_append (comment : Bool) (cs : List Char) :
    (splitGap comment cs).1 ++ (splitGap comment cs).2 = cs := by
  induction cs generalizing comment with
  | nil => rfl
  | cons c rest ih =>
    unfold splitGap
    dsimp only
    repeat' split
    all_goals simp [ih]

/-- A string body, its closing quote and what follows make up the text. -/
theorem splitString?_append {quote : Char} {cs body after : List Char}
    (h : splitString? quote cs = some (body, after)) : body ++ quote :: after = cs := by
  fun_induction splitString? quote cs generalizing body with
  | case1 => simp at h
  | case2 => simp_all
  | case3 => simp_all
  | case4 => simp_all
  | case5 d rest _ ih =>
    obtain ⟨⟨b, a⟩, hb, he⟩ := Option.map_eq_some_iff.1 h
    simp only [Prod.mk.injEq] at he
    obtain ⟨rfl, rfl⟩ := he
    simp [ih hb]
  | case6 c d rest _ _ ih =>
    obtain ⟨⟨b, a⟩, hb, he⟩ := Option.map_eq_some_iff.1 h
    simp only [Prod.mk.injEq] at he
    obtain ⟨rfl, rfl⟩ := he
    simp [ih hb]

/-- The characters of a string token and what follows make up the text. -/
theorem stringLexeme_append {quote : Char} {cs : List Char} {l : Lexeme}
    (h : stringLexeme quote cs = .ok l) : l.text ++ l.rest = quote :: cs := by
  unfold stringLexeme at h
  split at h
  · rename_i body after hs
    cases h
    simp [← splitString?_append hs]
  · cases h

/-- The characters of a number token and what follows make up the text. -/
theorem numberLexeme_append {cs : List Char} {l : Lexeme} (h : numberLexeme cs = .ok l) :
    l.text ++ l.rest = cs := by
  have hw := List.takeWhile_append_dropWhile (p := Char.isDigit) (l := cs)
  unfold numberLexeme at h
  dsimp only at h
  split at h
  · rename_i rest hd
    have hf := List.takeWhile_append_dropWhile (p := Char.isDigit) (l := rest)
    split at h
    · cases h
    · cases h
      rw [hd, ← hf] at hw
      simpa using hw
  · cases h
    exact hw

/-- The characters of a symbol token and what follows make up the text. -/
theorem symbolLexeme_append {c : Char} {rest : List Char} {l : Lexeme}
    (h : symbolLexeme c rest = .ok l) : l.text ++ l.rest = c :: rest := by
  unfold symbolLexeme at h
  split at h
  · rename_i sign hs
    cases h
    have hp := List.find?_some hs
    obtain ⟨t, ht⟩ := List.isPrefixOf_iff_prefix.1 hp
    simp [← ht]
  · cases h

/-- The characters of a token and the text after it make up the text. -/
theorem nextLexeme_append {c : Char} {rest : List Char} {l : Lexeme}
    (h : nextLexeme c rest = .ok l) : l.text ++ l.rest = c :: rest := by
  unfold nextLexeme at h
  split at h
  · cases h
    rfl
  split at h
  · exact stringLexeme_append h
  split at h
  · exact numberLexeme_append h
  split at h
  · cases h
    exact List.takeWhile_append_dropWhile
  · exact symbolLexeme_append h

/-- A token has at least one character. -/
theorem nextLexeme_text_ne_nil {c : Char} {rest : List Char} {l : Lexeme}
    (h : nextLexeme c rest = .ok l) : l.text ≠ [] := by
  unfold nextLexeme at h
  split at h
  · cases h
    simp
  split at h
  · unfold stringLexeme at h
    split at h <;> cases h
    simp
  split at h
  · rename_i hd
    unfold numberLexeme at h
    dsimp only at h
    split at h
    · split at h <;> cases h
      simp
    · cases h
      simp [hd]
  split at h
  · rename_i hs
    cases h
    simp [wordLexeme, continuesName, hs]
  · unfold symbolLexeme at h
    split at h <;> cases h
    rename_i sign _
    cases sign <;> simp [Symbol.chars]

/-- The text after a token is shorter. -/
theorem length_rest_lt {c : Char} {rest : List Char} {l : Lexeme} (h : nextLexeme c rest = .ok l) :
    l.rest.length < (c :: rest).length := by
  have ha := congrArg List.length (nextLexeme_append h)
  have hn := List.length_pos_iff.2 (nextLexeme_text_ne_nil h)
  rw [List.length_append] at ha
  omega

/-- The text after the first token is shorter than the text with the gap before it. -/
theorem length_rest_lt_of_splitGap {cs gap rest : List Char} {c : Char} {l : Lexeme}
    (hg : splitGap false cs = (gap, c :: rest)) (hl : nextLexeme c rest = .ok l) :
    l.rest.length < cs.length := by
  have ha := congrArg List.length (splitGap_append false cs)
  have hr := length_rest_lt hl
  rw [hg, List.length_append] at ha
  dsimp only at ha
  omega

/-! ## All tokens of a text -/

/-- The tokens of a text that starts at a given position. -/
def tokenizeFrom (p : Position) (cs : List Char) : Except Fault Tokens :=
  match hg : splitGap false cs with
  | (gap, []) =>
    let finish := p.past gap
    .ok ⟨[], finish.spanTo finish⟩
  | (gap, c :: rest) =>
    let start := p.past gap
    match hl : nextLexeme c rest with
    | .error wrong => .error ⟨wrong.cause, some (start.spanTo (start.past wrong.text))⟩
    | .ok l =>
      have := length_rest_lt_of_splitGap hg hl
      let stop := start.past l.text
      match tokenizeFrom stop l.rest with
      | .error fault => .error fault
      | .ok tokens =>
        let token : Token := ⟨l.kind, start.spanTo stop, String.ofList l.text⟩
        .ok { tokens with items := token :: tokens.items }
termination_by cs.length

end Token

/-- The tokens of a source text. -/
def tokenize (source : String) : Except Fault Tokens :=
  Token.tokenizeFrom .origin source.toList

end QuantumScript
