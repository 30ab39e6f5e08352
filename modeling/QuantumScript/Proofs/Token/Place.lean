import QuantumScript.Proofs.Token.Tiling

/-!
# Lines and columns of tokens

The line and the column of a point follow from the text before it by counting line feeds and the
characters since the last of them (`Position.counted`). A token that is read gets the line and the
column so counted, unless a token before it hides a line feed: a line feed after a backslash, which
may stand in a string, starts no line. This is the only exception (`tokenize_placed_iff`), and the
line is wrong for every token after such a string, and for the end of the tokens
(`tokenize_escaped_lineFeed`).
-/

namespace QuantumScript

/-- The characters of a text before a byte offset. -/
def charsBefore : Nat → List Char → List Char
  | _, [] => []
  | offset, c :: cs => if offset = 0 then [] else c :: charsBefore (offset - c.utf8Size) cs

/-- The characters before the end of the first part of a text are that part. -/
theorem charsBefore_append (before rest : List Char) :
    charsBefore (byteSize before) (before ++ rest) = before := by
  induction before with
  | nil => cases rest <;> rfl
  | cons c before ih =>
    have hc := c.utf8Size_pos
    have hsize : byteSize (c :: before) = c.utf8Size + byteSize before := rfl
    rw [List.cons_append, charsBefore, if_neg (by omega), hsize, Nat.add_sub_cancel_left, ih]

/-- The line of a region is one more than the number of line feeds before it, and its column is one
more than the number of characters since the last of them, or since the start of the text. -/
def Span.Placed (source : String) (span : Span) : Prop :=
  let before := charsBefore span.start source.toList
  span.line = 1 + before.count '\n' ∧
    span.column = 1 + (before.reverse.takeWhile (· ≠ '\n')).length

/-- The number of line feeds that stand after a backslash, where a backslash after a backslash does
not count as one. -/
def hiddenLineFeeds : List Char → Nat
  | [] => 0
  | [_] => 0
  | c :: d :: rest =>
    if c = '\\' then [d].count '\n' + hiddenLineFeeds rest else hiddenLineFeeds (d :: rest)

/-- A token hides a line feed. -/
def Token.HidesLineFeed (t : Token) : Prop :=
  0 < hiddenLineFeeds t.lexeme.toList

/-! ## Counting -/

namespace Position

/-- The point after a text, found by counting. -/
def counted (before : List Char) : Position :=
  ⟨byteSize before, 1 + before.count '\n', 1 + (before.reverse.takeWhile (· ≠ '\n')).length⟩

/-- A character other than a line feed is counted by a step. -/
theorem counted_step {c : Char} (before : List Char) (hc : c ≠ '\n') :
    (counted before).step c = counted (before ++ [c]) := by
  have hline : (before ++ [c]).count '\n' = before.count '\n' := by
    simp [List.count_append, hc]
  have hcolumn : (before ++ [c]).reverse.takeWhile (· ≠ '\n') =
      c :: before.reverse.takeWhile (· ≠ '\n') := by
    simp [hc]
  unfold counted step
  rw [hline, hcolumn, byteSize_append, List.length_cons]
  simp only [Position.mk.injEq, true_and]
  exact ⟨rfl, by omega⟩

/-- A line feed is counted as the start of a line. -/
theorem counted_nextLine (before : List Char) :
    (counted before).nextLine = counted (before ++ ['\n']) := by
  have hline : (before ++ ['\n']).count '\n' = before.count '\n' + 1 := by
    simp [List.count_append]
  have hcolumn : (before ++ ['\n']).reverse.takeWhile (· ≠ '\n') = [] := by
    simp
  unfold counted nextLine
  rw [hline, hcolumn, byteSize_append]
  rfl

/-- A text that hides no line feed leads from a point found by counting to another. -/
theorem counted_past (before cs : List Char) (h : hiddenLineFeeds cs = 0) :
    (counted before).past cs = counted (before ++ cs) := by
  generalize hp : counted before = p
  fun_induction past p cs generalizing before with
  | case1 p => rw [← hp, List.append_nil]
  | case2 p => rw [← hp, counted_nextLine]
  | case3 p c hc => rw [← hp, counted_step before hc]
  | case4 p d rest ih =>
    rw [hiddenLineFeeds, if_pos rfl] at h
    have hd : d ≠ '\n' := by
      rintro rfl
      simp at h
    rw [ih (before ++ ['\\', d]) (by omega), List.append_assoc, List.cons_append, List.cons_append,
      List.nil_append]
    rw [← hp, counted_step before (by decide), counted_step _ hd, List.append_assoc]
    rfl
  | case5 p d rest hc ih =>
    rw [hiddenLineFeeds, if_neg hc] at h
    rw [ih (before ++ ['\n']) h (by rw [← hp, counted_nextLine]), List.append_assoc]
    rfl
  | case6 p c d rest hc hn ih =>
    rw [hiddenLineFeeds, if_neg hc] at h
    rw [ih (before ++ [c]) h (by rw [← hp, counted_step before hn]), List.append_assoc]
    rfl

/-- Over some text the line grows by the number of line feeds that are not hidden. -/
theorem line_past (p : Position) (cs : List Char) :
    (p.past cs).line + hiddenLineFeeds cs = p.line + cs.count '\n' := by
  fun_induction past p cs with
  | case1 p => rfl
  | case2 p => rfl
  | case3 p c hc => simp [hiddenLineFeeds, step, hc]
  | case4 p d rest ih =>
    have hcount : ('\\' :: d :: rest).count '\n' = [d].count '\n' + rest.count '\n' := by
      rw [List.count_cons_of_ne (by decide), ← List.singleton_append, List.count_append]
    rw [hiddenLineFeeds, if_pos rfl, hcount]
    simp only [step] at ih ⊢
    omega
  | case5 p d rest hc ih =>
    rw [hiddenLineFeeds, if_neg hc]
    simp only [nextLine] at ih ⊢
    rw [ih, List.count_cons_self]
    omega
  | case6 p c d rest hc hn ih =>
    rw [hiddenLineFeeds, if_neg hc]
    simp only [step] at ih ⊢
    rw [ih, List.count_cons_of_ne hn]

/-- The line counted after a text grows by its line feeds. -/
theorem counted_line_append (before piece : List Char) :
    (counted (before ++ piece)).line = (counted before).line + piece.count '\n' := by
  show 1 + (before ++ piece).count '\n' = 1 + before.count '\n' + piece.count '\n'
  rw [List.count_append]
  omega

/-- A line behind the one counted stays behind, since no piece of text adds more lines than it has
line feeds. -/
theorem past_line_lt {p : Position} {before : List Char} (piece : List Char)
    (h : p.line < (counted before).line) :
    (p.past piece).line < (counted (before ++ piece)).line := by
  have hpast := p.line_past piece
  rw [counted_line_append]
  omega

/-- Nothing is hidden where there is no line feed. -/
theorem hiddenLineFeeds_eq_zero {cs : List Char} (h : '\n' ∉ cs) : hiddenLineFeeds cs = 0 := by
  have hline := line_past .origin cs
  rw [List.count_eq_zero_of_not_mem h] at hline
  have hgrown := (origin.past_eq cs).2
  omega

/-- A region that starts after the first part of a text is placed if its line and column are those
counted there. -/
theorem placed_iff {source : String} {before rest : List Char} {span : Span}
    (hsource : source.toList = before ++ rest) (hstart : span.start = byteSize before) :
    span.Placed source ↔
      span.line = (counted before).line ∧ span.column = (counted before).column := by
  unfold Span.Placed counted
  rw [hsource, hstart, charsBefore_append]

end Position

/-! ## Tokens -/

namespace Token

open Position

/-- A gap holds no line feed. -/
theorem Gap.newline_not_mem {gap : List Char} (h : Gap gap) : '\n' ∉ gap := by
  induction h with
  | nil => exact List.not_mem_nil
  | @blank c rest kind _ ih =>
    intro hmem
    rcases List.mem_cons.1 hmem with rfl | hmem
    · exact absurd kind (by decide)
    · exact ih hmem
  | comment line => exact fun hmem => (List.mem_cons.1 hmem).elim (by decide) line

/-- A gap leads from a point found by counting to another. -/
theorem Gap.counted_past {gap : List Char} (h : Gap gap) (before : List Char) :
    (counted before).past gap = counted (before ++ gap) :=
  Position.counted_past before gap (hiddenLineFeeds_eq_zero h.newline_not_mem)

variable {source : String} {p finish : Position} {before cs : List Char} {items : List Token}

/-- Where the line is behind the one counted, it stays behind for all tokens and for the end. -/
theorem Cut.not_placed (h : Cut p cs items finish) (hsource : source.toList = before ++ cs)
    (hoffset : p.offset = byteSize before) (hline : p.line < (counted before).line) :
    (∀ t ∈ items, ¬ t.span.Placed source) ∧ ¬ (finish.spanTo finish).Placed source := by
  induction h generalizing before with
  | @ending p gap between =>
    have hgap := past_line_lt gap hline
    refine ⟨fun _ ht => absurd ht List.not_mem_nil, fun hplaced => ?_⟩
    have hstart := offset_past gap hoffset
    have hwhole : source.toList = before ++ gap ++ [] := by rw [hsource, List.append_nil]
    have hright := (placed_iff hwhole hstart).1 hplaced
    exact absurd hright.1 (Nat.ne_of_lt hgap)
  | @token p finish gap text rest items kind between written more ih =>
    have hgap := past_line_lt gap hline
    have htext := past_line_lt text hgap
    have hstart := offset_past gap hoffset
    have hstop := offset_past text hstart
    have hafter : source.toList = before ++ gap ++ (text ++ rest) := by
      rw [hsource, List.append_assoc]
    have hrest : source.toList = before ++ gap ++ text ++ rest := by
      rw [hafter, List.append_assoc _ text]
    obtain ⟨hitems, hfinish⟩ := ih hrest hstop htext
    refine ⟨List.forall_mem_cons.2 ⟨fun hplaced => ?_, hitems⟩, hfinish⟩
    have hright := (placed_iff hafter hstart).1 hplaced
    exact absurd hright.1 (Nat.ne_of_lt hgap)

/-- The tokens are placed before which no token hides a line feed, and so is the end. -/
structure PlacedUnlessHidden (source : String) (items : List Token) (ending : Span) : Prop where
  /-- A token is placed exactly if no token before it hides a line feed. -/
  token : ∀ earlier t later, items = earlier ++ t :: later →
    (t.span.Placed source ↔ ∀ u ∈ earlier, ¬ u.HidesLineFeed)
  /-- The end is placed exactly if no token hides a line feed. -/
  ending : ending.Placed source ↔ ∀ u ∈ items, ¬ u.HidesLineFeed

/-- A token that is placed may be put in front: if it hides no line feed, before others of which the
same holds, and else before others that are not placed. -/
theorem PlacedUnlessHidden.cons {t : Token} {ending : Span} (ht : t.span.Placed source)
    (hshown : ¬ t.HidesLineFeed → PlacedUnlessHidden source items ending)
    (hhidden : t.HidesLineFeed → (∀ u ∈ items, ¬ u.span.Placed source) ∧ ¬ ending.Placed source) :
    PlacedUnlessHidden source (t :: items) ending := by
  by_cases h : t.HidesLineFeed
  · obtain ⟨hitems, hending⟩ := hhidden h
    refine ⟨fun earlier u later heq => ?_, ⟨fun hu => absurd hu hending, fun hnone => ?_⟩⟩
    · cases earlier with
      | nil =>
        cases heq
        exact ⟨fun _ _ hu => absurd hu List.not_mem_nil, fun _ => ht⟩
      | cons v earlier =>
        cases heq
        refine ⟨fun hu => absurd hu (hitems u (by simp)), fun hnone => ?_⟩
        exact absurd h (hnone t List.mem_cons_self)
    · exact absurd h (hnone t List.mem_cons_self)
  · have hrest := hshown h
    refine ⟨fun earlier u later heq => ?_, ?_⟩
    · cases earlier with
      | nil =>
        cases heq
        exact ⟨fun _ _ hu => absurd hu List.not_mem_nil, fun _ => ht⟩
      | cons v earlier =>
        cases heq
        rw [hrest.token earlier u later rfl, List.forall_mem_cons]
        exact ⟨fun hnone => ⟨h, hnone⟩, fun hnone => hnone.2⟩
    · rw [hrest.ending, List.forall_mem_cons]
      exact ⟨fun hnone => ⟨h, hnone⟩, fun hnone => hnone.2⟩

/-- Of a text that is cut from a point found by counting, the tokens are placed before which no token
hides a line feed. -/
theorem Cut.placedUnlessHidden (h : Cut p cs items finish) (hsource : source.toList = before ++ cs)
    (hp : p = counted before) : PlacedUnlessHidden source items (finish.spanTo finish) := by
  induction h generalizing before with
  | @ending p gap between =>
    subst hp
    refine ⟨fun earlier t later heq => ?_, fun _ _ ht => absurd ht List.not_mem_nil, fun _ => ?_⟩
    · cases earlier <;> cases heq
    · have hwhole : source.toList = before ++ gap ++ [] := by rw [hsource, List.append_nil]
      rw [between.counted_past]
      exact (placed_iff hwhole rfl).2 ⟨rfl, rfl⟩
  | @token p finish gap text rest items kind between written more ih =>
    subst hp
    rw [between.counted_past] at more ih ⊢
    have hafter : source.toList = before ++ gap ++ (text ++ rest) := by
      rw [hsource, List.append_assoc]
    have hrest : source.toList = before ++ gap ++ text ++ rest := by
      rw [hafter, List.append_assoc _ text]
    refine .cons ?_ (fun hshown => ?_) (fun hhidden => ?_)
    · exact (placed_iff hafter rfl).2 ⟨rfl, rfl⟩
    · -- The next point is the one counted, and the others follow from there.
      have hzero : hiddenLineFeeds text = 0 := by
        rw [HidesLineFeed, String.toList_ofList] at hshown
        omega
      exact ih hrest (Position.counted_past _ _ hzero)
    · -- The next point is a line behind, and no token catches up.
      rw [HidesLineFeed, String.toList_ofList] at hhidden
      have hline := (counted (before ++ gap)).line_past text
      refine more.not_placed hrest (offset_past text rfl) ?_
      rw [counted_line_append]
      omega

end Token

/-- A token of a source text is placed exactly if no token before it hides a line feed, and the end
of the tokens exactly if none of them does. -/
theorem tokenize_placed_iff {source : String} {tokens : Tokens}
    (h : tokenize source = .ok tokens) :
    (∀ earlier t later, tokens.items = earlier ++ t :: later →
        (t.span.Placed source ↔ ∀ u ∈ earlier, ¬ u.HidesLineFeed)) ∧
      (tokens.ending.Placed source ↔ ∀ u ∈ tokens.items, ¬ u.HidesLineFeed) := by
  obtain ⟨finish, hcut, hending⟩ := Token.cut_of_tokenizeFrom _ _ tokens h
  have hwhole : source.toList = [] ++ source.toList := rfl
  have hplaced := hcut.placedUnlessHidden hwhole rfl
  rw [hending]
  exact ⟨hplaced.token, hplaced.ending⟩

/-- A string with an escaped line feed, and a name after it. -/
def escapedText : String := "\"a\\\nb\" c"

/-- Its tokens. -/
def escapedTokens : Tokens :=
  ⟨[⟨.text "a\nb", ⟨0, 6, 1, 1⟩, "\"a\\\nb\""⟩, ⟨.name "c", ⟨7, 8, 1, 8⟩, "c"⟩], ⟨8, 8, 1, 9⟩⟩

/-- The string is placed and the name after it is not. -/
theorem tokenize_placed_iff_escaped :
    tokenize escapedText = .ok escapedTokens ∧
      Span.Placed escapedText ⟨0, 6, 1, 1⟩ ∧ ¬ Span.Placed escapedText ⟨7, 8, 1, 8⟩ := by
  have htokens : tokenize escapedText = .ok escapedTokens := by
    with_unfolding_all rfl
  have hplaced := (tokenize_placed_iff htokens).1
  refine ⟨htokens, (hplaced [] _ _ rfl).2 (by simp), fun hc => ?_⟩
  have hnone := (hplaced [_] _ _ rfl).1 hc _ List.mem_cons_self
  exact hnone (by unfold Token.HidesLineFeed; decide)

/-- After a string with an escaped line feed, the name on the second line, in its fourth column, is
said to be on the first, in its eighth column. -/
theorem tokenize_escaped_lineFeed :
    tokenize escapedText = .ok escapedTokens ∧
      (charsBefore 7 escapedText.toList).count '\n' = 1 ∧
      ¬ Span.Placed escapedText ⟨7, 8, 1, 8⟩ := by
  refine ⟨by with_unfolding_all rfl, by decide, fun h => ?_⟩
  exact absurd h.1 (by decide)

end QuantumScript
