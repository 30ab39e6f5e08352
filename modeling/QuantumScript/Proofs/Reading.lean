import QuantumScript.Token.Reading

/-!
# What a reading yields

`Yields reading value rest` says that a reading succeeds with a value and leaves the tokens `rest`.
Each way of putting readings together has one lemma here, which says what the whole yields in terms
of what its parts yield; the proof that a reading takes tokens stays inside them.
-/

namespace QuantumScript.Reading

open Token

variable {α β : Type} {n : Nat} {ts rest : List Token}

/-- A reading succeeds with a value and leaves some tokens. -/
def Yields (reading : Except Stuck (Found α n)) (value : α) (rest : List Token) : Prop :=
  ∃ h, reading = .ok ⟨value, rest, h⟩

/-- What a reading leaves is shorter than its bound. -/
theorem Yields.shorter {reading : Except Stuck (Found α n)} {value : α}
    (h : Yields reading value rest) : rest.length < n := by
  obtain ⟨hlt, -⟩ := h
  exact hlt

/-- A stuck reading yields nothing. -/
@[simp]
theorem yields_error {stuck : Stuck} {value : α} :
    ¬ Yields (.error stuck : Except Stuck (Found α n)) value rest := by
  rintro ⟨_, h⟩
  cases h

/-- The reading of one token yields its value and leaves what follows the token. -/
@[simp]
theorem yields_token {value a : α} {t : Token} {after : List Token} :
    Yields (Reading.token value t after) a rest ↔ a = value ∧ rest = after := by
  constructor
  · rintro ⟨_, h⟩
    cases h
    exact ⟨rfl, rfl⟩
  · rintro ⟨rfl, rfl⟩
    exact ⟨_, rfl⟩

/-- The reading of nothing yields its value and leaves everything. -/
@[simp]
theorem yields_nothing {value a : α} :
    Yields (LooseReading.nothing value ts) a rest ↔ a = value ∧ rest = ts := by
  constructor
  · rintro ⟨_, h⟩
    cases h
    exact ⟨rfl, rfl⟩
  · rintro ⟨rfl, rfl⟩
    exact ⟨_, rfl⟩

/-- A changed reading yields the changed value. -/
@[simp]
theorem yields_map {f : α → β} {reading : Reading α ts} {b : β} :
    Yields (reading.map f) b rest ↔ ∃ a, Yields reading a rest ∧ f a = b := by
  unfold Reading.map
  cases reading with
  | error => simp
  | ok found =>
    constructor
    · rintro ⟨_, h⟩
      cases h
      exact ⟨found.value, ⟨found.shorter, rfl⟩, rfl⟩
    · rintro ⟨a, ⟨_, ha⟩, rfl⟩
      cases ha
      exact ⟨_, rfl⟩

/-- A changed loose reading yields the changed value. -/
@[simp]
theorem yields_loose_map {f : α → β} {reading : LooseReading α ts} {b : β} :
    Yields (LooseReading.map f reading) b rest ↔ ∃ a, Yields reading a rest ∧ f a = b := by
  unfold LooseReading.map
  cases reading with
  | error => simp
  | ok found =>
    constructor
    · rintro ⟨_, h⟩
      cases h
      exact ⟨found.value, ⟨found.shorter, rfl⟩, rfl⟩
    · rintro ⟨a, ⟨_, ha⟩, rfl⟩
      cases ha
      exact ⟨_, rfl⟩

/-- A widened reading yields what it yielded before. -/
@[simp]
theorem yields_widen {us : List Token} {reading : Reading α us} {h : us.length ≤ ts.length}
    {a : α} : Yields (reading.widen h : Reading α ts) a rest ↔ Yields reading a rest := by
  unfold Reading.widen
  cases reading with
  | error => simp
  | ok found =>
    constructor
    · rintro ⟨_, h⟩
      cases h
      exact ⟨found.shorter, rfl⟩
    · rintro ⟨_, ha⟩
      cases ha
      exact ⟨_, rfl⟩

/-- A reading behind a token yields what it yields without the token. -/
@[simp]
theorem yields_behind {t : Token} {reading : Reading α ts} {a : α} :
    Yields (Reading.behind t reading) a rest ↔ Yields reading a rest :=
  yields_widen

/-- A loosened reading yields what it yielded before. -/
@[simp]
theorem yields_loosen {reading : Reading α ts} {a : α} :
    Yields reading.loosen a rest ↔ Yields reading a rest := by
  unfold Reading.loosen
  cases reading with
  | error => simp
  | ok found =>
    constructor
    · rintro ⟨_, h⟩
      cases h
      exact ⟨found.shorter, rfl⟩
    · rintro ⟨_, ha⟩
      cases ha
      exact ⟨_, rfl⟩

/-- A loose reading behind a token yields what the reading yields without the token. -/
@[simp]
theorem yields_loose_behind {t : Token} {reading : Reading α ts} {a : α} :
    Yields (LooseReading.behind t reading) a rest ↔ Yields reading a rest := by
  unfold LooseReading.behind
  rw [yields_loosen, yields_behind]

/-- Two readings one after the other yield what the second yields on what the first leaves. -/
@[simp]
theorem yields_andMaybe {reading : Reading α ts}
    {next : α → (mid : List Token) → mid.length < ts.length → LooseReading β mid} {b : β} :
    Yields (reading.andMaybe next) b rest ↔
      ∃ a mid, ∃ h : Yields reading a mid, Yields (next a mid h.shorter) b rest := by
  unfold Reading.andMaybe
  cases reading with
  | error => simp
  | ok first =>
    constructor
    · rintro ⟨hlt, h⟩
      dsimp only at h
      split at h
      · cases h
      · rename_i second hs
        cases h
        exact ⟨first.value, first.rest, ⟨first.shorter, rfl⟩, ⟨second.shorter, hs⟩⟩
    · rintro ⟨a, mid, ⟨hlt, ha⟩, ⟨hlt', hb⟩⟩
      cases ha
      dsimp only
      rw [hb]
      exact ⟨_, rfl⟩

/-- Two readings one after the other, where the second takes tokens too. -/
@[simp]
theorem yields_andThen {reading : Reading α ts}
    {next : α → (mid : List Token) → mid.length < ts.length → Reading β mid} {b : β} :
    Yields (reading.andThen next) b rest ↔
      ∃ a mid, ∃ h : Yields reading a mid, Yields (next a mid h.shorter) b rest := by
  unfold Reading.andThen
  simp only [yields_andMaybe, yields_loosen]

/-- A reading behind line ends yields what it yields from the first other token. -/
@[simp]
theorem yields_pastNewlines
    {next : (mid : List Token) → mid.length ≤ ts.length → Reading α mid} {a : α} :
    Yields (pastNewlines ts next) a rest ↔
      Yields (next (skipNewlines ts) (length_skipNewlines_le ts)) a rest :=
  yields_widen

/-- A reading behind separators yields what it yields from the first other token. -/
@[simp]
theorem yields_pastSeparators
    {next : (mid : List Token) → mid.length ≤ ts.length → Reading α mid} {a : α} :
    Yields (pastSeparators ts next) a rest ↔
      Yields (next (skipSeparators ts) (length_skipSeparators_le ts)) a rest :=
  yields_widen

/-- A tested token is read when it comes first. -/
@[simp]
theorem yields_take {test : Token → Bool} {want : Expectation} {t : Token} :
    Yields (take test want ts) t rest ↔ ts = t :: rest ∧ test t := by
  unfold take
  cases ts with
  | nil => simp
  | cons u us =>
    dsimp only
    split
    · rename_i hu
      simp only [yields_token, List.cons.injEq]
      constructor
      · rintro ⟨rfl, rfl⟩
        exact ⟨⟨rfl, rfl⟩, hu⟩
      · rintro ⟨⟨rfl, rfl⟩, -⟩
        exact ⟨rfl, rfl⟩
    · rename_i hu
      simp only [yields_error, List.cons.injEq, false_iff]
      rintro ⟨⟨rfl, rfl⟩, ht⟩
      exact hu ht

/-- A symbol is read when it comes first. -/
@[simp]
theorem yields_takeSymbol {sign : Symbol} {want : Expectation} {t : Token} :
    Yields (takeSymbol sign want ts) t rest ↔ ts = t :: rest ∧ t.kind = .symbol sign := by
  simp [takeSymbol, isSymbol]

/-- A keyword is read when it comes first. -/
@[simp]
theorem yields_takeKeyword {word : Keyword} {want : Expectation} {t : Token} :
    Yields (takeKeyword word want ts) t rest ↔ ts = t :: rest ∧ t.kind = .keyword word := by
  simp [takeKeyword, isKeyword]

/-- A name is read when it comes first. -/
@[simp]
theorem yields_takeName {want : Expectation} {found : String × Span} :
    Yields (takeName want ts) found rest ↔
      ∃ t, ts = t :: rest ∧ t.kind = .name found.1 ∧ t.span = found.2 := by
  unfold takeName
  cases ts with
  | nil => simp
  | cons u us =>
    dsimp only
    split
    · rename_i value hu
      simp only [yields_token, List.cons.injEq]
      constructor
      · rintro ⟨rfl, rfl⟩
        exact ⟨u, ⟨rfl, rfl⟩, hu, rfl⟩
      · -- A token has one kind, so the name found is the one asked for.
        rintro ⟨t, ⟨rfl, rfl⟩, hk, hs⟩
        rw [hu] at hk
        cases hk
        exact ⟨Prod.ext rfl hs.symm, rfl⟩
    · rename_i hu
      simp only [yields_error, List.cons.injEq, false_iff]
      rintro ⟨t, ⟨rfl, rfl⟩, hk, -⟩
      exact hu _ hk

end QuantumScript.Reading
