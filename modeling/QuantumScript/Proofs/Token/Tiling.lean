import QuantumScript.Proofs.Token.Within

/-!
# Tokens and the gaps between them make up the text

Reading a text cuts it into tokens and gaps (`Cut`), where a gap is made of blanks and perhaps a
comment (`Gap`). So the tokens tile the text (`tokenize_tiles`): they stand in order and do not
overlap, each is written as the bytes of its region say, and between two of them, before the first
and after the last, there is nothing but a gap.
-/

namespace QuantumScript

namespace Token

/-! ## Cutting a text -/

/-- The text between two tokens: blanks, and perhaps a comment after them, which does not go beyond
its line. -/
inductive Gap : List Char → Prop
  /-- Nothing. -/
  | nil : Gap []
  /-- A space, a tab or a carriage return, and more. -/
  | blank {c : Char} {rest : List Char} (kind : c = ' ' ∨ c = '\t' ∨ c = '\r') (more : Gap rest) :
    Gap (c :: rest)
  /-- A comment. -/
  | comment {body : List Char} (line : '\n' ∉ body) : Gap ('#' :: body)

/-- A text that starts at a point is cut into tokens with gaps before them and a gap at the end,
where it comes to another point. -/
inductive Cut : Position → List Char → List Token → Position → Prop
  /-- Only a gap is left. -/
  | ending {p : Position} {gap : List Char} (between : Gap gap) : Cut p gap [] (p.past gap)
  /-- A gap, a token of at least one character, and more. -/
  | token {p finish : Position} {gap text rest : List Char} {items : List Token} (kind : Kind)
    (between : Gap gap) (written : text ≠ [])
    (more : Cut ((p.past gap).past text) rest items finish) :
    Cut p (gap ++ (text ++ rest))
      (⟨kind, (p.past gap).spanTo ((p.past gap).past text), String.ofList text⟩ :: items) finish

/-- A comment that has begun does not go beyond its line. -/
theorem newline_not_mem_splitGap (cs : List Char) : '\n' ∉ (splitGap true cs).1 := by
  induction cs with
  | nil => exact List.not_mem_nil
  | cons c cs ih =>
    rw [splitGap]
    dsimp only
    rw [if_pos rfl]
    split
    · exact List.not_mem_nil
    · rename_i hc
      exact fun h => (List.mem_cons.1 h).elim (fun h => hc h.symm) ih

/-- What is split off in front of a token is a gap. -/
theorem gap_splitGap (cs : List Char) : Gap (splitGap false cs).1 := by
  induction cs with
  | nil => exact .nil
  | cons c cs ih =>
    rw [splitGap]
    dsimp only
    rw [if_neg Bool.false_ne_true]
    split
    · rename_i hc
      simp only [Bool.or_eq_true, decide_eq_true_eq, or_assoc] at hc
      exact .blank hc ih
    split
    · rename_i hc
      subst hc
      exact .comment (newline_not_mem_splitGap cs)
    · exact .nil

/-- A text that is read is cut into its tokens. -/
theorem cut_of_tokenizeFrom (p : Position) (cs : List Char) :
    ∀ tokens, tokenizeFrom p cs = .ok tokens →
      ∃ finish, Cut p cs tokens.items finish ∧ tokens.ending = finish.spanTo finish := by
  fun_induction tokenizeFrom p cs with
  | case1 p cs gap hgap finish =>
    rintro _ ⟨⟩
    have hcs := splitGap_append false cs
    have hbetween := gap_splitGap cs
    rw [hgap] at hcs hbetween
    rw [← hcs, List.append_nil]
    exact ⟨finish, .ending hbetween, rfl⟩
  | case2 =>
    intro tokens h
    cases h
  | case3 =>
    intro tokens h
    cases h
  | case4 p cs gap c rest hgap start l hl _ stop others hothers token ih =>
    rintro _ ⟨⟩
    have hcs := splitGap_append false cs
    have hbetween := gap_splitGap cs
    rw [hgap] at hcs hbetween
    obtain ⟨finish, hcut, hending⟩ := ih others hothers
    rw [← hcs, ← nextLexeme_append hl]
    exact ⟨finish, .token l.kind hbetween (nextLexeme_text_ne_nil hl) hcut, hending⟩

/-! ## Tiles -/

/-- The regions between tokens: from a place to the first of them, from each to the next, and from
the last to another place. -/
def regionsBetween (start : Nat) (items : List Token) (finish : Nat) : List (Nat × Nat) :=
  match items with
  | [] => [(start, finish)]
  | t :: items => (start, t.span.start) :: regionsBetween t.span.stop items finish

/-- From one place to another, a text is made of tokens and the gaps between them. -/
structure Tiling (source : String) (start : Nat) (items : List Token) (finish : Nat) : Prop where
  /-- Every token has at least one byte. -/
  written : ∀ t ∈ items, t.span.start < t.span.stop
  /-- A token is written as the bytes of its region say. -/
  lexeme : ∀ t ∈ items,
    t.lexeme.toByteArray = source.toByteArray.extract t.span.start t.span.stop
  /-- A token ends before the tokens after it start. -/
  ordered : items.Pairwise fun t u => t.span.stop ≤ u.span.start
  /-- What is between tokens is a gap. -/
  between : ∀ region ∈ regionsBetween start items finish, region.1 ≤ region.2 ∧
    ∃ gap, Gap gap ∧ (String.ofList gap).toByteArray =
      source.toByteArray.extract region.1 region.2

namespace Tiling

variable {source : String} {start finish : Nat} {t : Token} {items : List Token}

/-- After the first token, the others are tiles from its end on. -/
theorem tail (h : Tiling source start (t :: items) finish) :
    Tiling source t.span.stop items finish where
  written u hu := h.written u (List.mem_cons_of_mem t hu)
  lexeme u hu := h.lexeme u (List.mem_cons_of_mem t hu)
  ordered := (List.pairwise_cons.1 h.ordered).2
  between region hregion := h.between region (List.mem_cons_of_mem _ hregion)

/-- No token starts before the place where the tiles start. -/
theorem start_le (h : Tiling source start items finish) : ∀ t ∈ items, start ≤ t.span.start := by
  induction items generalizing start with
  | nil => exact fun _ ht => absurd ht List.not_mem_nil
  | cons t items ih =>
    have hfirst : start ≤ t.span.start := (h.between (start, t.span.start) List.mem_cons_self).1
    have hwritten : t.span.start < t.span.stop := h.written t List.mem_cons_self
    refine List.forall_mem_cons.2 ⟨hfirst, fun u hu => ?_⟩
    have hrest : t.span.stop ≤ u.span.start := ih h.tail u hu
    omega

/-- A token with a gap before it can be put in front of tiles that start where it ends. -/
theorem cons (hwritten : t.span.start < t.span.stop)
    (hlexeme : t.lexeme.toByteArray = source.toByteArray.extract t.span.start t.span.stop)
    (hfirst : start ≤ t.span.start ∧ ∃ gap, Gap gap ∧
      (String.ofList gap).toByteArray = source.toByteArray.extract start t.span.start)
    (more : Tiling source t.span.stop items finish) : Tiling source start (t :: items) finish where
  written := List.forall_mem_cons.2 ⟨hwritten, more.written⟩
  lexeme := List.forall_mem_cons.2 ⟨hlexeme, more.lexeme⟩
  ordered := List.pairwise_cons.2 ⟨more.start_le, more.ordered⟩
  between := List.forall_mem_cons.2 ⟨hfirst, more.between⟩

end Tiling

/-- A point with some text before it leads over a piece to a point with both before it. -/
theorem offset_past {p : Position} {before : List Char} (piece : List Char)
    (h : p.offset = byteSize before) : (p.past piece).offset = byteSize (before ++ piece) := by
  rw [(p.past_eq piece).1, h, byteSize_append]

/-- The bytes of a piece of a text are those from the place where it starts to the place where it
ends. -/
theorem toByteArray_piece {source : String} {before piece rest : List Char}
    (h : source.toList = before ++ (piece ++ rest)) :
    (String.ofList piece).toByteArray =
      source.toByteArray.extract (byteSize before) (byteSize (before ++ piece)) := by
  have hsize (cs : List Char) : byteSize cs = (String.ofList cs).toByteArray.size := by
    rw [String.size_toByteArray, ← byteSize_toList, String.toList_ofList]
  have hsource : source.toByteArray = (String.ofList before).toByteArray ++
      ((String.ofList piece).toByteArray ++ (String.ofList rest).toByteArray) := by
    rw [← String.toByteArray_append, ← String.toByteArray_append, ← String.ofList_append,
      ← String.ofList_append, ← h, String.ofList_toList]
  rw [hsource, byteSize_append, hsize before, hsize piece]
  exact ((ByteArray.extract_append_size_add (i := 0)).trans
    (ByteArray.extract_append_eq_left rfl)).symm

/-- The tokens that a text is cut into tile it from the point where it starts. -/
theorem Cut.tiling {source : String} {p finish : Position} {before cs : List Char}
    {items : List Token} (h : Cut p cs items finish) (hp : p.offset = byteSize before)
    (hsource : source.toList = before ++ cs) :
    Tiling source p.offset items finish.offset ∧ finish.offset = source.utf8ByteSize := by
  induction h generalizing before with
  | @ending p gap between =>
    have hfinish := offset_past gap hp
    have hwhole : source.toList = before ++ (gap ++ []) := by rw [hsource, List.append_nil]
    have hbytes := toByteArray_piece hwhole
    refine ⟨⟨by simp, by simp, .nil, ?_⟩, ?_⟩
    · intro region hregion
      obtain rfl := List.mem_singleton.1 hregion
      refine ⟨?_, gap, between, ?_⟩
      · rw [hfinish, hp, byteSize_append]
        omega
      · rw [hbytes, hp, hfinish]
    · rw [hfinish, ← hsource, byteSize_toList]
  | @token p finish gap text rest items kind between written more ih =>
    have hstart := offset_past gap hp
    have hstop := offset_past text hstart
    have hafter : source.toList = before ++ gap ++ (text ++ rest) := by
      rw [hsource, List.append_assoc]
    have hrest : source.toList = before ++ gap ++ text ++ rest := by
      rw [hafter, List.append_assoc _ text]
    have hgap := toByteArray_piece hsource
    have htext := toByteArray_piece hafter
    have hpos : 0 < byteSize text := by
      cases text with
      | nil => exact absurd rfl written
      | cons c text =>
        rw [byteSize_cons]
        have hc := c.utf8Size_pos
        omega
    obtain ⟨htiles, hfinish⟩ := ih hstop hrest
    refine ⟨.cons ?_ ?_ ⟨?_, gap, between, ?_⟩ htiles, hfinish⟩
    · show (p.past gap).offset < ((p.past gap).past text).offset
      rw [hstop, hstart, byteSize_append _ text]
      omega
    · show (String.ofList text).toByteArray =
        source.toByteArray.extract (p.past gap).offset ((p.past gap).past text).offset
      rw [htext, hstop, hstart]
    · show p.offset ≤ (p.past gap).offset
      rw [hstart, hp, byteSize_append]
      omega
    · show (String.ofList gap).toByteArray =
        source.toByteArray.extract p.offset (p.past gap).offset
      rw [hgap, hp, hstart]

end Token

/-- The tokens of a source text tile it from its first byte to its last, where the end of the tokens
stands. -/
theorem tokenize_tiles {source : String} {tokens : Tokens} (h : tokenize source = .ok tokens) :
    tokens.ending.start = source.utf8ByteSize ∧ tokens.ending.stop = source.utf8ByteSize ∧
      Token.Tiling source 0 tokens.items source.utf8ByteSize := by
  obtain ⟨finish, hcut, hending⟩ := Token.cut_of_tokenizeFrom _ _ tokens h
  have hwhole : source.toList = [] ++ source.toList := rfl
  obtain ⟨htiles, hfinish⟩ := hcut.tiling (by rfl) hwhole
  rw [hending, ← hfinish]
  exact ⟨rfl, rfl, htiles⟩

/-- A text with characters of two bytes, an escaped quote and a comment. -/
def commentedText : String := "é == \"ß\\\"\" # ü\n"

/-- Its tokens. -/
def commentedTokens : Tokens :=
  ⟨[⟨.name "é", ⟨0, 2, 1, 1⟩, "é"⟩,
    ⟨.symbol .equal, ⟨3, 5, 1, 3⟩, "=="⟩,
    ⟨.text "ß\"", ⟨6, 12, 1, 6⟩, "\"ß\\\"\""⟩,
    ⟨.newline, ⟨17, 18, 1, 15⟩, "\n"⟩], ⟨18, 18, 2, 1⟩⟩

/-- The four tokens tile the eighteen bytes of the text. -/
theorem tokenize_tiles_comment :
    tokenize commentedText = .ok commentedTokens ∧
      Token.Tiling commentedText 0 commentedTokens.items commentedText.utf8ByteSize := by
  have htokens : tokenize commentedText = .ok commentedTokens := by
    with_unfolding_all rfl
  exact ⟨htokens, (tokenize_tiles htokens).2.2⟩

end QuantumScript
