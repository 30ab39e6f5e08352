import QuantumScript.Proofs.Grammar.Render
import QuantumScript.Proofs.Reading

/-!
# Readers that point at the first wrong token

`Sticks reading stuck` says that a reading is stuck, and each way of putting readings together has
one lemma that says when the whole is stuck in terms of its parts.

A reader `Points` at the first wrong token of some tokens if, whenever it is stuck, the tokens that
it has taken are `viable` and the next one alone is to blame: the reader is stuck in the same way
before all tokens that begin with that one. Two lemmas carry this from the parts of a reader to the
whole, `Points.behind` for tokens that were read before and `points_andMaybe` for one reading after
another.
-/

namespace QuantumScript.Reading

open Token

variable {α β : Type} {n : Nat} {ts : List Token} {stuck : Stuck}

/-! ## Stuck readings -/

/-- A reading is stuck. -/
def Sticks (reading : Except Stuck (Found α n)) (stuck : Stuck) : Prop :=
  reading = .error stuck

/-- A failed reading is stuck as it says. -/
@[simp]
theorem sticks_error {other : Stuck} :
    Sticks (.error other : Except Stuck (Found α n)) stuck ↔ stuck = other := by
  unfold Sticks
  rw [Except.error.injEq, eq_comm]

/-- The reading of one token is not stuck. -/
@[simp]
theorem not_sticks_token {value : α} {t : Token} {after : List Token} :
    ¬ Sticks (Reading.token value t after) stuck := by
  intro h
  cases h

/-- The reading of nothing is not stuck. -/
@[simp]
theorem not_sticks_nothing {value : α} : ¬ Sticks (LooseReading.nothing value ts) stuck := by
  intro h
  cases h

/-- A changed reading is stuck where it was before. -/
@[simp]
theorem sticks_map {f : α → β} {reading : Reading α ts} :
    Sticks (reading.map f) stuck ↔ Sticks reading stuck := by
  unfold Reading.map Sticks
  cases reading <;> simp

/-- A changed loose reading is stuck where it was before. -/
@[simp]
theorem sticks_loose_map {f : α → β} {reading : LooseReading α ts} :
    Sticks (LooseReading.map f reading) stuck ↔ Sticks reading stuck := by
  unfold LooseReading.map Sticks
  cases reading <;> simp

/-- A widened reading is stuck where it was before. -/
@[simp]
theorem sticks_widen {us : List Token} {reading : Reading α us} {h : us.length ≤ ts.length} :
    Sticks (reading.widen h : Reading α ts) stuck ↔ Sticks reading stuck := by
  unfold Reading.widen Sticks
  cases reading <;> simp

/-- A reading behind a token is stuck where it is without the token. -/
@[simp]
theorem sticks_behind {t : Token} {reading : Reading α ts} :
    Sticks (Reading.behind t reading) stuck ↔ Sticks reading stuck :=
  sticks_widen

/-- A loosened reading is stuck where it was before. -/
@[simp]
theorem sticks_loosen {reading : Reading α ts} :
    Sticks reading.loosen stuck ↔ Sticks reading stuck := by
  unfold Reading.loosen Sticks
  cases reading <;> simp

/-- A loose reading behind a token is stuck where the reading is without the token. -/
@[simp]
theorem sticks_loose_behind {t : Token} {reading : Reading α ts} :
    Sticks (LooseReading.behind t reading) stuck ↔ Sticks reading stuck := by
  unfold LooseReading.behind
  rw [sticks_loosen, sticks_behind]

/-- Of two readings one after the other, the first is stuck, or the second on what the first
leaves. -/
@[simp]
theorem sticks_andMaybe {reading : Reading α ts}
    {next : α → (mid : List Token) → mid.length < ts.length → LooseReading β mid} :
    Sticks (reading.andMaybe next) stuck ↔
      Sticks reading stuck ∨
        ∃ a mid, ∃ h : Yields reading a mid, Sticks (next a mid h.shorter) stuck := by
  unfold Reading.andMaybe
  cases reading with
  | error other => simp [Sticks]
  | ok first =>
    constructor
    · intro h
      refine .inr ⟨first.value, first.rest, ⟨first.shorter, rfl⟩, ?_⟩
      dsimp only [Sticks] at h ⊢
      split at h
      · rename_i other hs
        cases h
        exact hs
      · cases h
    · rintro (h | ⟨a, mid, ⟨hlt, ha⟩, h⟩)
      · cases h
      · cases ha
        dsimp only [Sticks] at h ⊢
        rw [h]

/-- Of two readings one after the other, where the second takes tokens too. -/
@[simp]
theorem sticks_andThen {reading : Reading α ts}
    {next : α → (mid : List Token) → mid.length < ts.length → Reading β mid} :
    Sticks (reading.andThen next) stuck ↔
      Sticks reading stuck ∨
        ∃ a mid, ∃ h : Yields reading a mid, Sticks (next a mid h.shorter) stuck := by
  unfold Reading.andThen
  simp only [sticks_andMaybe, sticks_loosen]

/-- A reading behind line ends is stuck where it is from the first other token. -/
@[simp]
theorem sticks_pastNewlines
    {next : (mid : List Token) → mid.length ≤ ts.length → Reading α mid} :
    Sticks (pastNewlines ts next) stuck ↔
      Sticks (next (skipNewlines ts) (length_skipNewlines_le ts)) stuck :=
  sticks_widen

/-- A reading behind separators is stuck where it is from the first other token. -/
@[simp]
theorem sticks_pastSeparators
    {next : (mid : List Token) → mid.length ≤ ts.length → Reading α mid} :
    Sticks (pastSeparators ts next) stuck ↔
      Sticks (next (skipSeparators ts) (length_skipSeparators_le ts)) stuck :=
  sticks_widen

/-- The reader of a token that is tested is stuck at one that fails the test. -/
@[simp]
theorem sticks_take {test : Token → Bool} {want : Expectation} :
    Sticks (take test want ts) stuck ↔
      stuck = ⟨.expected want, ts⟩ ∧ ∀ t ∈ ts.head?, test t = false := by
  unfold take
  cases ts with
  | nil => simp
  | cons t after =>
    dsimp only
    split
    · rename_i ht
      simp [ht]
    · rename_i ht
      simp [ht]

/-- The reader of a name is stuck at a token that is none. -/
@[simp]
theorem sticks_takeName {want : Expectation} :
    Sticks (takeName want ts) stuck ↔
      stuck = ⟨.expected want, ts⟩ ∧ ∀ t ∈ ts.head?, ∀ name, t.kind ≠ .name name := by
  unfold takeName
  cases ts with
  | nil => simp
  | cons t after =>
    dsimp only
    split
    · rename_i name hk
      simp [hk]
    · rename_i hk
      simpa using fun _ => hk

/-! ## Pointing at the first wrong token -/

/-- Some tokens can be completed to a whole. -/
def Begins (whole : List Token → Prop) (us : List Token) : Prop :=
  ∃ more, whole (us ++ more)

/-- A whole need not be completed. -/
theorem Begins.of_whole {whole : List Token → Prop} (h : whole ts) : Begins whole ts :=
  ⟨[], by rwa [List.append_nil]⟩

/-- What begins like the beginning of a whole is one. -/
theorem Begins.of_append {whole : List Token → Prop} {us : List Token}
    (h : Begins whole (ts ++ us)) : Begins whole ts := by
  obtain ⟨more, hwhole⟩ := h
  exact ⟨us ++ more, by rwa [← List.append_assoc]⟩

/-- Wherever a reader is stuck, what it has taken is viable, and it is stuck in the same way before
all tokens that begin with the same one. -/
def Points (sticks : List Token → Stuck → Prop) (viable : List Token → Prop) (ts : List Token) :
    Prop :=
  ∀ reason rest, sticks ts ⟨reason, rest⟩ →
    ∃ used, ts = used ++ rest ∧ viable used ∧
      ∀ rest', rest'.head? = rest.head? → sticks (used ++ rest') ⟨reason, rest'⟩

variable {sticks sticks' : List Token → Stuck → Prop} {viable viable' : List Token → Prop}

/-- What stands behind the same tokens begins with the same one if it did so before. -/
theorem head?_append_congr {front rest rest' : List Token} (h : rest'.head? = rest.head?) :
    (front ++ rest').head? = (front ++ rest).head? := by
  rw [List.head?_append, List.head?_append, h]

/-- A reader that points at a token does so for every notion of what is viable that is looser on
what stands before. -/
theorem Points.mono_of_append (h : Points sticks viable ts)
    (hv : ∀ us vs, ts = us ++ vs → viable us → viable' us) : Points sticks viable' ts := by
  intro reason rest hs
  obtain ⟨used, hused, hviable, hsame⟩ := h reason rest hs
  exact ⟨used, hused, hv used rest hused hviable, hsame⟩

/-- A reader that points at a token does so for every looser notion of what is viable. -/
theorem Points.mono (h : Points sticks viable ts) (hv : ∀ us, viable us → viable' us) :
    Points sticks viable' ts :=
  h.mono_of_append fun us _ _ => hv us

/-- A reader that is not stuck points at nothing. -/
theorem points_of_not (h : ∀ stuck, ¬ sticks ts stuck) : Points sticks viable ts :=
  fun _ _ hs => absurd hs (h _)

/-- A reader that is stuck at once points at the first token, if that alone is to blame. -/
theorem points_first (hv : viable [])
    (h : ∀ reason rest, sticks ts ⟨reason, rest⟩ →
      rest = ts ∧ ∀ us, us.head? = ts.head? → sticks us ⟨reason, us⟩) :
    Points sticks viable ts := by
  intro reason rest hs
  obtain ⟨rfl, hsame⟩ := h reason rest hs
  exact ⟨[], rfl, hv, hsame⟩

/-- A reader that is stuck at the end of the tokens points at it. -/
theorem points_nil (reason : Stuck.Reason) (hv : viable [])
    (h : ∀ stuck, sticks [] stuck ↔ stuck = ⟨reason, []⟩) : Points sticks viable [] := by
  refine points_first hv fun reason rest hs => ?_
  cases (h _).1 hs
  refine ⟨rfl, fun us hhead => ?_⟩
  rw [List.head?_eq_none_iff.1 hhead]
  exact hs

/-- A reader that is stuck whenever a token comes first points at this token. -/
theorem points_cons (reason : Stuck.Reason) {t : Token} (hv : viable [])
    (h : ∀ us stuck, sticks (t :: us) stuck ↔ stuck = ⟨reason, t :: us⟩) :
    Points sticks viable (t :: ts) := by
  refine points_first hv fun reason rest hs => ?_
  cases (h _ _).1 hs
  refine ⟨rfl, fun us hhead => ?_⟩
  obtain ⟨after, rfl⟩ := List.head?_eq_some_iff.1 hhead
  exact (h after _).2 rfl

/-- The reader of a token that is tested points at it. -/
theorem points_take {test : Token → Bool} (want : Expectation) (hv : viable []) :
    Points (fun us => Sticks (take test want us)) viable ts := by
  refine points_first hv fun reason rest hs => ?_
  obtain ⟨heq, htest⟩ := sticks_take.1 hs
  cases heq
  refine ⟨rfl, fun us hhead => sticks_take.2 ⟨rfl, ?_⟩⟩
  rw [hhead]
  exact htest

/-- The reader of a name points at the token that is none. -/
theorem points_takeName (want : Expectation) (hv : viable []) :
    Points (fun us => Sticks (takeName want us)) viable ts := by
  refine points_first hv fun reason rest hs => ?_
  obtain ⟨heq, htest⟩ := sticks_takeName.1 hs
  cases heq
  refine ⟨rfl, fun us hhead => sticks_takeName.2 ⟨rfl, ?_⟩⟩
  rw [hhead]
  exact htest

/-- A reader that takes some tokens as long as a given one follows points where the reader behind
them does. -/
theorem Points.behind {front mid : List Token}
    (hsticks : ∀ mid', mid'.head? = mid.head? →
      ∀ stuck, sticks (front ++ mid') stuck ↔ sticks' mid' stuck)
    (h : Points sticks' (fun us => viable (front ++ us)) mid) :
    Points sticks viable (front ++ mid) := by
  intro reason rest hs
  obtain ⟨used, rfl, hviable, hsame⟩ := h reason rest ((hsticks mid rfl _).1 hs)
  refine ⟨front ++ used, by simp, hviable, fun rest' hhead => ?_⟩
  rw [List.append_assoc]
  exact (hsticks _ (head?_append_congr hhead) _).2 (hsame rest' hhead)

/-- Readers that are stuck at the same places of all tokens that begin with the same one point at
the same tokens. -/
theorem Points.congr_head
    (hsticks : ∀ us, us.head? = ts.head? → ∀ stuck, sticks us stuck ↔ sticks' us stuck)
    (h : Points sticks' viable ts) : Points sticks viable ts := by
  show Points sticks viable ([] ++ ts)
  exact Points.behind hsticks h

/-- Readers that are stuck at the same places point at the same tokens. -/
theorem Points.congr (hsticks : ∀ us stuck, sticks us stuck ↔ sticks' us stuck)
    (h : Points sticks' viable ts) : Points sticks viable ts :=
  h.congr_head fun us _ => hsticks us

/-- A reader that takes one token points where the reader behind it does. -/
theorem points_behind {read : (us : List Token) → Reading α us} {t : Token}
    (hsticks : ∀ us stuck, sticks (t :: us) stuck ↔ Sticks (read us) stuck)
    (h : Points (fun us => Sticks (read us)) (fun us => viable (t :: us)) ts) :
    Points sticks viable (t :: ts) := by
  show Points sticks viable ([t] ++ ts)
  exact Points.behind (fun mid' _ stuck => hsticks mid' stuck) h

/-- Tokens in front of one that fails a test are skipped if they pass it. -/
theorem dropWhile_append_of_head {p : Token → Bool} {before rest : List Token}
    (hb : ∀ t ∈ before, p t) (hr : ∀ t ∈ rest.head?, p t = false) :
    (before ++ rest).dropWhile p = rest := by
  rw [List.dropWhile_append_of_pos hb]
  cases rest with
  | nil => rfl
  | cons t after => rw [List.dropWhile_cons_of_neg (by simp [hr t rfl])]

/-- The tokens in front that pass a test, and what is left without them. -/
theorem exists_dropWhile (p : Token → Bool) (ts : List Token) :
    ∃ before mid, (∀ t ∈ before, p t) ∧ ts = before ++ mid ∧ mid = ts.dropWhile p ∧
      ∀ t ∈ mid.head?, p t = false := by
  refine ⟨ts.takeWhile p, ts.dropWhile p, List.all_eq_true.1 List.all_takeWhile,
    List.takeWhile_append_dropWhile.symm, rfl, fun t ht => ?_⟩
  have hnot := List.head?_dropWhile_not p ts
  rw [Option.mem_def.1 ht] at hnot
  exact hnot

/-- A reader that skips tokens which pass a test points where the reader behind them does. -/
theorem points_dropWhile {p : Token → Bool}
    (hsticks : ∀ us stuck, sticks us stuck ↔ sticks' (us.dropWhile p) stuck)
    (h : ∀ before mid, (∀ t ∈ before, p t) → ts = before ++ mid →
      Points sticks' (fun us => viable (before ++ us)) mid) :
    Points sticks viable ts := by
  obtain ⟨before, mid, hb, rfl, -, hmid⟩ := exists_dropWhile p ts
  refine Points.behind (fun mid' hhead stuck => ?_) (h before mid hb rfl)
  -- The first token that is left fails the test, so none more is skipped.
  rw [hsticks, dropWhile_append_of_head hb (by rwa [hhead])]

/-- A reader that skips line ends points where the reader behind them does. -/
theorem points_pastNewlines {read : (us : List Token) → Reading α us}
    (h : ∀ before mid, Grammar.LineEnds before → ts = before ++ mid →
      Points (fun us => Sticks (read us)) (fun us => viable (before ++ us)) mid) :
    Points (fun us => Sticks (pastNewlines us fun mid _ => read mid)) viable ts :=
  points_dropWhile (fun _ _ => sticks_pastNewlines) h

/-- A reader that skips separators points where the reader behind them does. -/
theorem points_pastSeparators {read : (us : List Token) → Reading α us}
    (h : ∀ lead mid, Grammar.Separators lead → ts = lead ++ mid →
      Points (fun us => Sticks (read us)) (fun us => viable (lead ++ us)) mid) :
    Points (fun us => Sticks (pastSeparators us fun mid _ => read mid)) viable ts :=
  points_dropWhile (fun _ _ => sticks_pastSeparators) h

/-- Line ends are skipped at once. -/
theorem skipNewlines_skipNewlines (ts : List Token) :
    skipNewlines (skipNewlines ts) = skipNewlines ts := by
  obtain ⟨before, mid, -, -, hmid, hfirst⟩ := exists_dropWhile isNewline ts
  unfold skipNewlines
  rw [← hmid]
  exact dropWhile_append_of_head Grammar.lineEnds_nil hfirst

/-- A reader that skips line ends is stuck where it is without them. -/
theorem sticks_skipNewlines {read : (us : List Token) → Reading α us} :
    Sticks (pastNewlines ts fun mid _ => read mid) stuck ↔
      Sticks (pastNewlines (skipNewlines ts) fun mid _ => read mid) stuck := by
  rw [sticks_pastNewlines, sticks_pastNewlines, skipNewlines_skipNewlines]

/-- A symbol that comes first is read, so its reader is not stuck. -/
theorem not_sticks_takeSymbol {sign : Symbol} {want : Expectation} {t : Token}
    {f : Token → α} (ht : t.isSymbol sign) :
    ¬ Sticks (pastNewlines (t :: ts) fun mid _ => (takeSymbol sign want mid).map f) stuck := by
  have hk : t.kind = .symbol sign := by simpa [isSymbol] using ht
  have hskip : skipNewlines (t :: ts) = t :: ts :=
    List.dropWhile_cons_of_neg (by simp [isNewline, hk])
  rw [sticks_pastNewlines, sticks_map, takeSymbol, sticks_take, hskip]
  rintro ⟨-, hnot⟩
  have hfalse := hnot t rfl
  rw [ht] at hfalse
  cases hfalse

/-- A keyword that comes first is read, so what follows is read behind it. -/
theorem sticks_behind_keyword {keyword : Keyword} {want : Expectation} {t : Token}
    {next : Token → (us : List Token) → Reading α us} (hk : t.kind = .keyword keyword) :
    Sticks (pastNewlines (t :: ts) fun mid _ =>
        (takeKeyword keyword want mid).andThen fun found rest _ => next found rest) stuck ↔
      Sticks (next t ts) stuck := by
  have hskip : skipNewlines (t :: ts) = t :: ts :=
    List.dropWhile_cons_of_neg (by simp [isNewline, hk])
  rw [sticks_pastNewlines, hskip, sticks_andThen, takeKeyword, sticks_take]
  simp only [yields_take, exists_prop]
  constructor
  · rintro (⟨-, hnot⟩ | ⟨found, mid, ⟨heq, -⟩, hs⟩)
    · have hfalse := hnot t rfl
      simp [isKeyword, hk] at hfalse
    · cases heq
      exact hs
  · intro hs
    exact .inr ⟨t, ts, ⟨rfl, by simp [isKeyword, hk]⟩, hs⟩

/-- A reader that goes two ways, depending on the next token that is no line end, points at the
first wrong token if it does so on both ways. On neither way it may look at the line ends. -/
theorem points_ifNext {size : List Token → Nat}
    {yes no : (us : List Token) → Except Stuck (Found α (size us))} {test : Token → Bool}
    (hyes : ∀ us stuck, Sticks (yes us) stuck ↔ Sticks (yes (skipNewlines us)) stuck)
    (hno : ∀ us stuck, Sticks (no us) stuck ↔ Sticks (no (skipNewlines us)) stuck)
    (hpass : ∀ before t after, Grammar.LineEnds before → ts = before ++ t :: after → test t →
      Points (fun us => Sticks (yes us)) (fun us => viable (before ++ us)) (t :: after))
    (hfail : ∀ before mid, Grammar.LineEnds before → ts = before ++ mid →
      Points (fun us => Sticks (no us)) (fun us => viable (before ++ us)) mid) :
    Points (fun us => Sticks (if nextIs test us then yes us else no us)) viable ts := by
  obtain ⟨before, mid, hb, rfl, -, hmid⟩ := exists_dropWhile isNewline ts
  have hskip (mid' : List Token) (hhead : mid'.head? = mid.head?) :
      skipNewlines (before ++ mid') = mid' ∧ skipNewlines mid' = mid' := by
    have hmid' : ∀ t ∈ mid'.head?, t.isNewline = false := by rwa [hhead]
    exact ⟨dropWhile_append_of_head hb hmid', dropWhile_append_of_head Grammar.lineEnds_nil hmid'⟩
  cases mid with
  | nil =>
    refine Points.behind (fun mid' hhead stuck => ?_) (hfail before [] hb rfl)
    have hnext : nextIs test (before ++ mid') = false := by
      rw [nextIs, (hskip mid' hhead).1, List.head?_eq_none_iff.1 hhead]
    rw [hnext, if_neg Bool.false_ne_true, hno, hno mid', (hskip mid' hhead).1,
      (hskip mid' hhead).2]
  | cons t after =>
    have hnext (mid' : List Token) (hhead : mid'.head? = some t) :
        nextIs test (before ++ mid') = test t := by
      obtain ⟨after', rfl⟩ := List.head?_eq_some_iff.1 hhead
      rw [nextIs, (hskip _ hhead).1]
    cases htest : test t with
    | true =>
      refine Points.behind (fun mid' hhead stuck => ?_) (hpass before t after hb rfl htest)
      rw [hnext mid' hhead, if_pos htest, hyes, hyes mid', (hskip mid' hhead).1,
        (hskip mid' hhead).2]
    | false =>
      refine Points.behind (fun mid' hhead stuck => ?_) (hfail before (t :: after) hb rfl)
      rw [hnext mid' hhead, htest, if_neg Bool.false_ne_true, hno, hno mid',
        (hskip mid' hhead).1, (hskip mid' hhead).2]

/-- What a reading has yielded is yielded again before all tokens that begin with the same one. -/
def Settled (read : (us : List Token) → Reading α us) (a : α) (front mid : List Token) : Prop :=
  ∀ mid', mid'.head? = mid.head? → Yields (read (front ++ mid')) a mid'

/-- One reading after another points at the first wrong token if both do and if what the first one
yields is settled. -/
theorem points_andMaybe {first : (us : List Token) → Reading α us}
    {next : α → (mid : List Token) → LooseReading β mid}
    (hfirst : Points (fun us => Sticks (first us)) viable ts)
    (hnext : ∀ a mid, Yields (first ts) a mid → ∃ front, ts = front ++ mid ∧
      Settled first a front mid ∧
      Points (fun us => Sticks (next a us)) (fun us => viable (front ++ us)) mid) :
    Points (fun us => Sticks ((first us).andMaybe fun a mid _ => next a mid)) viable ts := by
  intro reason rest hstuck
  rcases sticks_andMaybe.1 hstuck with hs | ⟨a, mid, hy, hs⟩
  · obtain ⟨used, hused, hviable, hsame⟩ := hfirst reason rest hs
    exact ⟨used, hused, hviable, fun rest' hhead => sticks_andMaybe.2 (.inl (hsame rest' hhead))⟩
  · obtain ⟨front, rfl, hsettled, hpoints⟩ := hnext a mid hy
    obtain ⟨used, rfl, hviable, hsame⟩ := hpoints reason rest hs
    refine ⟨front ++ used, by simp, hviable, fun rest' hhead => ?_⟩
    have hy' := hsettled (used ++ rest') (head?_append_congr hhead)
    rw [← List.append_assoc] at hy'
    exact sticks_andMaybe.2 (.inr ⟨a, _, hy', hsame rest' hhead⟩)

/-- The same where the second reading takes tokens too. -/
theorem points_andThen {first : (us : List Token) → Reading α us}
    {next : α → (mid : List Token) → Reading β mid}
    (hfirst : Points (fun us => Sticks (first us)) viable ts)
    (hnext : ∀ a mid, Yields (first ts) a mid → ∃ front, ts = front ++ mid ∧
      Settled first a front mid ∧
      Points (fun us => Sticks (next a us)) (fun us => viable (front ++ us)) mid) :
    Points (fun us => Sticks ((first us).andThen fun a mid _ => next a mid)) viable ts := by
  unfold Reading.andThen
  refine points_andMaybe hfirst fun a mid hy => ?_
  obtain ⟨front, hfront, hsettled, hpoints⟩ := hnext a mid hy
  exact ⟨front, hfront, hsettled, hpoints.congr fun us stuck => sticks_loosen⟩

end QuantumScript.Reading
