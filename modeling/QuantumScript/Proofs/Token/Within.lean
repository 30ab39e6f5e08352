import QuantumScript.Token.Lexer

/-!
# Where tokens stand

Every token of a source text stands inside it, and so does the end of its tokens and every piece
that spells none (`tokenize_located`). The offset of a point is the number of bytes before it, so
that the point after some text is as many bytes further on as the text has.
-/

namespace QuantumScript

/-- A region lies in a text of so many bytes. -/
structure Span.Within (size : Nat) (span : Span) : Prop where
  /-- It starts before it ends. -/
  ordered : span.start ≤ span.stop
  /-- It ends in the text. -/
  inside : span.stop ≤ size
  /-- Its line is counted from one. -/
  lined : 1 ≤ span.line

/-- A fault has a region, of which something holds. -/
def Fault.Located (P : Span → Prop) (fault : Fault) : Prop :=
  ∃ span, fault.span = some span ∧ P span

/-- Something holds of the regions of all tokens and of the end. -/
def Tokens.Located (P : Span → Prop) (tokens : Tokens) : Prop :=
  (∀ t ∈ tokens.items, P t.span) ∧ P tokens.ending

/-! ## Points -/

/-- The number of bytes of some characters. -/
def byteSize : List Char → Nat
  | [] => 0
  | c :: cs => c.utf8Size + byteSize cs

/-- A character and others have as many bytes as they have together. -/
theorem byteSize_cons (c : Char) (cs : List Char) :
    byteSize (c :: cs) = c.utf8Size + byteSize cs := rfl

/-- Characters one after the other have as many bytes as they have together. -/
theorem byteSize_append (cs ds : List Char) : byteSize (cs ++ ds) = byteSize cs + byteSize ds := by
  induction cs with
  | nil => exact (Nat.zero_add _).symm
  | cons c cs ih =>
    rw [List.cons_append, byteSize_cons, byteSize_cons, ih]
    omega

/-- A text has as many bytes as its characters. -/
theorem byteSize_toList (s : String) : byteSize s.toList = s.utf8ByteSize := by
  have hlist (cs : List Char) : byteSize cs = (String.ofList cs).utf8ByteSize := by
    induction cs with
    | nil => rfl
    | cons c cs ih =>
      have hsplit : String.ofList (c :: cs) = String.singleton c ++ String.ofList cs := by
        rw [String.singleton_eq_ofList, ← String.ofList_append]
        rfl
      rw [byteSize_cons, ih, hsplit, String.utf8ByteSize_append, String.utf8ByteSize_singleton]
  rw [hlist, String.ofList_toList]

namespace Position

/-- The point after some text is as many bytes further on as the text has, and on no earlier
line. -/
theorem past_eq (p : Position) (cs : List Char) :
    (p.past cs).offset = p.offset + byteSize cs ∧ p.line ≤ (p.past cs).line := by
  fun_induction past p cs with
  | case1 p => exact ⟨rfl, Nat.le_refl _⟩
  | case2 p => exact ⟨rfl, Nat.le_succ _⟩
  | case3 p c => exact ⟨rfl, Nat.le_refl _⟩
  | case4 p d rest ih =>
    obtain ⟨hoffset, hline⟩ := ih
    refine ⟨?_, hline⟩
    rw [hoffset, byteSize_cons, byteSize_cons]
    simp only [step]
    omega
  | case5 p d rest _ ih =>
    obtain ⟨hoffset, hline⟩ := ih
    refine ⟨?_, Nat.le_of_succ_le hline⟩
    rw [hoffset, byteSize_cons _ (d :: rest)]
    simp only [nextLine]
    omega
  | case6 p c d rest _ _ ih =>
    obtain ⟨hoffset, hline⟩ := ih
    refine ⟨?_, hline⟩
    rw [hoffset, byteSize_cons c]
    simp only [step]
    omega

/-- A point of a text of so many bytes with some characters after it. -/
structure Before (size : Nat) (p : Position) (cs : List Char) : Prop where
  /-- Its line is counted from one. -/
  lined : 1 ≤ p.line
  /-- The characters end in the text. -/
  fits : p.offset + byteSize cs ≤ size

variable {size : Nat} {p : Position} {cs ds : List Char}

/-- After the first of some characters come the others. -/
theorem Before.past (h : p.Before size (cs ++ ds)) : (p.past cs).Before size ds := by
  obtain ⟨hoffset, hline⟩ := p.past_eq cs
  have hfits := h.fits
  rw [byteSize_append] at hfits
  exact ⟨Nat.le_trans h.lined hline, by omega⟩

/-- The region of the first of some characters lies in the text. -/
theorem Before.span (h : p.Before size (cs ++ ds)) : (p.spanTo (p.past cs)).Within size := by
  have hoffset := (p.past_eq cs).1
  have hfits := h.past.fits
  refine ⟨?_, ?_, h.lined⟩
  · show p.offset ≤ (p.past cs).offset
    omega
  · show (p.past cs).offset ≤ size
    omega

end Position

namespace Token

variable {c : Char} {cs rest : List Char} {wrong : Misspelling}

/-- A piece of text that spells no number stands at the front. -/
theorem numberLexeme_isPrefix (h : numberLexeme cs = .error wrong) : wrong.text <+: cs := by
  unfold numberLexeme at h
  dsimp only at h
  split at h
  · rename_i after hafter
    split at h
    · rename_i last hlast
      cases h
      -- The digits, the point, the digits after it and the second point.
      have hwhole := List.takeWhile_append_dropWhile (p := Char.isDigit) (l := cs)
      have hfraction := List.takeWhile_append_dropWhile (p := Char.isDigit) (l := after)
      rw [hafter] at hwhole
      rw [hlast] at hfraction
      refine ⟨last, ?_⟩
      rw [← hfraction] at hwhole
      simpa using hwhole
    · cases h
  · cases h

/-- A piece of text that spells no token stands at the front. -/
theorem nextLexeme_isPrefix (h : nextLexeme c rest = .error wrong) :
    wrong.text <+: c :: rest := by
  unfold nextLexeme at h
  split at h
  · cases h
  split at h
  · unfold stringLexeme at h
    split at h <;> cases h
    exact ⟨[], List.append_nil _⟩
  split at h
  · exact numberLexeme_isPrefix h
  split at h
  · cases h
  · unfold symbolLexeme at h
    split at h <;> cases h
    exact ⟨rest, rfl⟩

/-- After a gap comes the rest of the text. -/
theorem before_of_splitGap {p : Position} {size : Nat} {gap : List Char} (h : p.Before size cs)
    (hgap : splitGap false cs = (gap, rest)) : (p.past gap).Before size rest := by
  rw [← splitGap_append false cs, hgap] at h
  exact h.past

/-- Whatever is read from a text at a point stands in it. -/
theorem tokenizeFrom_located {p : Position} {size : Nat} (h : p.Before size cs) :
    (∀ fault, tokenizeFrom p cs = .error fault → fault.Located (Span.Within size)) ∧
      ∀ tokens, tokenizeFrom p cs = .ok tokens → tokens.Located (Span.Within size) := by
  -- The gap is left behind first; a token then leaves the rest for the induction.
  fun_induction tokenizeFrom p cs with
  | case1 p cs gap hgap finish =>
    have hfinish : finish.Before size ([] ++ []) := before_of_splitGap h hgap
    refine ⟨nofun, ?_⟩
    rintro _ ⟨⟩
    exact ⟨fun _ ht => absurd ht List.not_mem_nil, hfinish.span⟩
  | case2 p cs gap c rest hgap start wrong hwrong =>
    obtain ⟨after, hafter⟩ := nextLexeme_isPrefix hwrong
    have hstart : start.Before size (wrong.text ++ after) := hafter ▸ before_of_splitGap h hgap
    refine ⟨?_, nofun⟩
    rintro _ ⟨⟩
    exact ⟨_, rfl, hstart.span⟩
  | case3 p cs gap c rest hgap start l hl _ stop fault hfault ih =>
    have hstart : start.Before size (l.text ++ l.rest) :=
      nextLexeme_append hl ▸ before_of_splitGap h hgap
    refine ⟨?_, nofun⟩
    rintro _ ⟨⟩
    exact (ih hstart.past).1 _ hfault
  | case4 p cs gap c rest hgap start l hl _ stop tokens htokens token ih =>
    have hstart : start.Before size (l.text ++ l.rest) :=
      nextLexeme_append hl ▸ before_of_splitGap h hgap
    obtain ⟨hitems, hending⟩ := (ih hstart.past).2 _ htokens
    refine ⟨nofun, ?_⟩
    rintro _ ⟨⟩
    exact ⟨List.forall_mem_cons.2 ⟨hstart.span, hitems⟩, hending⟩

end Token

/-- Whatever is read from a source text stands in it. -/
theorem tokenize_located (source : String) :
    (∀ fault, tokenize source = .error fault →
      fault.Located (Span.Within source.utf8ByteSize)) ∧
      ∀ tokens, tokenize source = .ok tokens →
        tokens.Located (Span.Within source.utf8ByteSize) := by
  refine Token.tokenizeFrom_located ⟨Nat.le_refl 1, ?_⟩
  rw [byteSize_toList]
  exact Nat.le_of_eq (Nat.zero_add _)

end QuantumScript
