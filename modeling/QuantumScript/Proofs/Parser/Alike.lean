import QuantumScript.Token.Reading

/-!
# Readings that differ in places only

Two lists of tokens have the `SameKinds` if they differ in nothing but regions and spellings. Two
readings are `Alike` if they find things that are related and leave tokens of the same kinds, or
both get stuck for the same reason with tokens of the same kinds left. Each way of putting readings
together has one lemma here, which says that it makes alike readings of alike ones.
-/

namespace QuantumScript

namespace Token

/-- Tokens of the same kinds in the same order. -/
def SameKinds (ts us : List Token) : Prop :=
  ts.map kind = us.map kind

variable {ts us : List Token}

/-- No tokens have the kinds of no tokens. -/
theorem SameKinds.nil : SameKinds [] [] := rfl

/-- Tokens of one kind may be put in front. -/
theorem SameKinds.cons {t u : Token} (h : t.kind = u.kind) (hs : SameKinds ts us) :
    SameKinds (t :: ts) (u :: us) := by
  unfold SameKinds at *
  rw [List.map_cons, List.map_cons, h, hs]

/-- What has the kinds of no tokens is none. -/
theorem SameKinds.eq_nil (h : SameKinds [] us) : us = [] :=
  List.map_eq_nil_iff.1 h.symm

/-- What has the kinds of some tokens starts with the kind of the first. -/
theorem SameKinds.exists_cons {t : Token} (h : SameKinds (t :: ts) us) :
    ∃ u vs, us = u :: vs ∧ t.kind = u.kind ∧ SameKinds ts vs := by
  cases us with
  | nil => cases h
  | cons u vs =>
    obtain ⟨hk, hs⟩ := List.cons.inj h
    exact ⟨u, vs, rfl, hk, hs⟩

/-- Dropping tokens by their kinds leaves the same kinds. -/
theorem SameKinds.dropWhile {test : Token → Bool}
    (ht : ∀ t u : Token, t.kind = u.kind → test t = test u) (h : SameKinds ts us) :
    SameKinds (ts.dropWhile test) (us.dropWhile test) := by
  induction ts generalizing us with
  | nil =>
    rw [h.eq_nil]
    exact .nil
  | cons t ts ih =>
    obtain ⟨u, vs, rfl, hk, hs⟩ := h.exists_cons
    rw [List.dropWhile_cons, List.dropWhile_cons, ht t u hk]
    split
    · exact ih hs
    · exact .cons hk hs

/-- A token is told to be a symbol by its kind. -/
theorem isSymbol_congr {t u : Token} (h : t.kind = u.kind) (sign : Symbol) :
    t.isSymbol sign = u.isSymbol sign := by
  rw [isSymbol, isSymbol, h]

/-- A token is told to be a keyword by its kind. -/
theorem isKeyword_congr {t u : Token} (h : t.kind = u.kind) (word : Keyword) :
    t.isKeyword word = u.isKeyword word := by
  rw [isKeyword, isKeyword, h]

/-- A token is told to be a line end by its kind. -/
theorem isNewline_congr {t u : Token} (h : t.kind = u.kind) : t.isNewline = u.isNewline := by
  rw [isNewline, isNewline, h]

/-- A token is told to be a separator by its kind. -/
theorem isSeparator_congr {t u : Token} (h : t.kind = u.kind) :
    t.isSeparator = u.isSeparator := by
  rw [isSeparator, isSeparator, isNewline_congr h, isSymbol_congr h]

/-- Skipping line ends leaves the same kinds. -/
theorem SameKinds.skipNewlines (h : SameKinds ts us) :
    SameKinds (skipNewlines ts) (skipNewlines us) :=
  h.dropWhile fun _ _ => isNewline_congr

/-- Skipping separators leaves the same kinds. -/
theorem SameKinds.skipSeparators (h : SameKinds ts us) :
    SameKinds (skipSeparators ts) (skipSeparators us) :=
  h.dropWhile fun _ _ => isSeparator_congr

/-- What comes next, line ends aside, is told by the kinds. -/
theorem SameKinds.nextIs {test : Token → Bool}
    (ht : ∀ t u : Token, t.kind = u.kind → test t = test u) (h : SameKinds ts us) :
    nextIs test ts = nextIs test us := by
  have hs := h.skipNewlines
  unfold Token.nextIs
  cases hts : Token.skipNewlines ts with
  | nil =>
    rw [hts] at hs
    rw [hs.eq_nil]
  | cons t after =>
    rw [hts] at hs
    obtain ⟨u, vs, hu, hk, -⟩ := hs.exists_cons
    rw [hu]
    exact ht t u hk

end Token

namespace Reading

open Token

variable {α β : Type} {a b : Nat} {ts us rest rest' : List Token} {R : α → α → Prop}
  {S : β → β → Prop}

/-- Two readings find related things and leave tokens of the same kinds, or get stuck for the same
reason with tokens of the same kinds left. -/
inductive Alike (R : α → α → Prop) :
    Except Stuck (Found α a) → Except Stuck (Found α b) → Prop
  /-- Both find something. -/
  | ok {value value' : α} {rest rest' : List Token} {h : rest.length < a} {h' : rest'.length < b}
    (related : R value value') (left : SameKinds rest rest') :
    Alike R (.ok ⟨value, rest, h⟩) (.ok ⟨value', rest', h'⟩)
  /-- Both are stuck. -/
  | error {reason : Stuck.Reason} {rest rest' : List Token} (left : SameKinds rest rest') :
    Alike R (.error ⟨reason, rest⟩) (.error ⟨reason, rest'⟩)

/-- Readings of one token are alike if what they find is related. -/
theorem alike_token {value value' : α} {t t' : Token} (h : R value value')
    (hs : SameKinds ts us) : Alike R (Reading.token value t ts) (Reading.token value' t' us) :=
  .ok h hs

/-- Readings of nothing are alike if what they find is related. -/
theorem alike_nothing {value value' : α} (h : R value value') (hs : SameKinds ts us) :
    Alike R (LooseReading.nothing value ts) (LooseReading.nothing value' us) :=
  .ok h hs

/-- Alike readings stay so when what they find is changed in the same way. -/
theorem Alike.map {f f' : α → β} {reading : Reading α ts} {reading' : Reading α us}
    (h : Alike R reading reading') (hf : ∀ x y, R x y → S (f x) (f' y)) :
    Alike S (reading.map f) (reading'.map f') := by
  cases h with
  | ok related left => exact .ok (hf _ _ related) left
  | error left => exact .error left

/-- Alike loose readings stay so when what they find is changed in the same way. -/
theorem Alike.looseMap {f f' : α → β} {reading : LooseReading α ts}
    {reading' : LooseReading α us} (h : Alike R reading reading')
    (hf : ∀ x y, R x y → S (f x) (f' y)) :
    Alike S (LooseReading.map f reading) (LooseReading.map f' reading') := by
  cases h with
  | ok related left => exact .ok (hf _ _ related) left
  | error left => exact .error left

/-- Alike readings stay so as readings of more tokens. -/
theorem Alike.widen {reading : Reading α rest} {reading' : Reading α rest'}
    (h : Alike R reading reading') (hle : rest.length ≤ ts.length)
    (hle' : rest'.length ≤ us.length) :
    Alike R (reading.widen hle : Reading α ts) (reading'.widen hle' : Reading α us) := by
  cases h with
  | ok related left => exact .ok related left
  | error left => exact .error left

/-- Alike readings stay so behind a token. -/
theorem Alike.behind {t t' : Token} {reading : Reading α ts} {reading' : Reading α us}
    (h : Alike R reading reading') :
    Alike R (Reading.behind t reading) (Reading.behind t' reading') :=
  h.widen _ _

/-- Alike readings stay so as loose ones. -/
theorem Alike.loosen {reading : Reading α ts} {reading' : Reading α us}
    (h : Alike R reading reading') : Alike R reading.loosen reading'.loosen := by
  cases h with
  | ok related left => exact .ok related left
  | error left => exact .error left

/-- Alike readings stay so as loose ones behind a token. -/
theorem Alike.looseBehind {t t' : Token} {reading : Reading α ts} {reading' : Reading α us}
    (h : Alike R reading reading') :
    Alike R (LooseReading.behind t reading) (LooseReading.behind t' reading') :=
  h.behind.loosen

/-- Alike readings stay so when alike loose ones follow. -/
theorem Alike.andMaybe {reading : Reading α ts} {reading' : Reading α us}
    {next : α → (rest : List Token) → rest.length < ts.length → LooseReading β rest}
    {next' : α → (rest : List Token) → rest.length < us.length → LooseReading β rest}
    (h : Alike R reading reading')
    (hn : ∀ x y rest rest' hlt hlt', R x y → SameKinds rest rest' →
      Alike S (next x rest hlt) (next' y rest' hlt')) :
    Alike S (reading.andMaybe next) (reading'.andMaybe next') := by
  cases h with
  | @ok value value' rest rest' hlt hlt' related left =>
    have hnext := hn value value' rest rest' hlt hlt' related left
    unfold Reading.andMaybe
    dsimp only
    -- The bounds of the two depend on what was found; only that they are alike matters now.
    generalize next value rest hlt = second at hnext
    generalize next' value' rest' hlt' = second' at hnext
    cases hnext with
    | ok related left => exact .ok related left
    | error left => exact .error left
  | error left => exact .error left

/-- Alike readings stay so when alike ones follow. -/
theorem Alike.andThen {reading : Reading α ts} {reading' : Reading α us}
    {next : α → (rest : List Token) → rest.length < ts.length → Reading β rest}
    {next' : α → (rest : List Token) → rest.length < us.length → Reading β rest}
    (h : Alike R reading reading')
    (hn : ∀ x y rest rest' hlt hlt', R x y → SameKinds rest rest' →
      Alike S (next x rest hlt) (next' y rest' hlt')) :
    Alike S (reading.andThen next) (reading'.andThen next') :=
  h.andMaybe fun x y rest rest' hlt hlt' hr hs => (hn x y rest rest' hlt hlt' hr hs).loosen

/-- Reading the same token finds one of the same kind. -/
theorem alike_take {test : Token → Bool} (want : Expectation)
    (ht : ∀ t u : Token, t.kind = u.kind → test t = test u) (h : SameKinds ts us) :
    Alike (fun t u => t.kind = u.kind) (take test want ts) (take test want us) := by
  cases ts with
  | nil =>
    rw [h.eq_nil]
    exact .error .nil
  | cons t ts =>
    obtain ⟨u, vs, rfl, hk, hs⟩ := h.exists_cons
    unfold take
    dsimp only
    rw [ht t u hk]
    split
    · exact .ok hk hs
    · exact .error (.cons hk hs)

/-- Reading a symbol finds one of the same kind. -/
theorem alike_takeSymbol (sign : Symbol) (want : Expectation) (h : SameKinds ts us) :
    Alike (fun t u => t.kind = u.kind) (takeSymbol sign want ts) (takeSymbol sign want us) :=
  alike_take want (fun _ _ hk => isSymbol_congr hk sign) h

/-- Reading a keyword finds one of the same kind. -/
theorem alike_takeKeyword (word : Keyword) (want : Expectation) (h : SameKinds ts us) :
    Alike (fun t u => t.kind = u.kind) (takeKeyword word want ts) (takeKeyword word want us) :=
  alike_take want (fun _ _ hk => isKeyword_congr hk word) h

/-- Reading a name finds the same name. -/
theorem alike_takeName (want : Expectation) (h : SameKinds ts us) :
    Alike (fun x y => x.1 = y.1) (takeName want ts) (takeName want us) := by
  cases ts with
  | nil =>
    rw [h.eq_nil]
    exact .error .nil
  | cons t ts =>
    obtain ⟨u, vs, rfl, hk, hs⟩ := h.exists_cons
    unfold takeName
    dsimp only
    rw [← hk]
    split
    · exact .ok rfl hs
    · exact .error (.cons hk hs)

end Reading

/-! ## What a stuck reader reports -/

/-- A stuck reader reports its cause wherever it is stuck. -/
theorem Stuck.cause_fault (stuck : Stuck) (ending : Span) :
    (stuck.fault ending).cause = stuck.cause := by
  unfold fault
  split <;> rfl

/-- A reader that is stuck for a reason reports the same cause at tokens of the same kinds. -/
theorem Stuck.cause_sameKinds {reason : Reason} {rest rest' : List Token}
    (h : Token.SameKinds rest rest') :
    (Stuck.mk reason rest).cause = (Stuck.mk reason rest').cause := by
  have hgot : (Stuck.mk reason rest).got = (Stuck.mk reason rest').got := by
    cases rest with
    | nil => rw [h.eq_nil]
    | cons t rest =>
      obtain ⟨u, us, rfl, hk, -⟩ := h.exists_cons
      simp only [got, hk]
  unfold cause
  rw [hgot]

end QuantumScript
