import QuantumScript.Proofs.Parser.Failure
import QuantumScript.Proofs.Parser.StmtPoints

/-!
# Reading fails at the first wrong token

Tokens that are not read as a program fail at the first one that fits nowhere. Those before it can
be completed to a program, so none of them is wrong; and all tokens that agree up to this one fail
there in the same way, so nothing behind it is looked at (`parse_fails_first`).
-/

namespace QuantumScript

/-- What a stuck reader reports is told by the first token that it leaves, or by the end. -/
theorem Stuck.fault_of_head {reason : Reason} {rest rest' : List Token} {ending ending' : Span}
    (hhead : rest'.head? = rest.head?) (hend : rest = [] → ending' = ending) :
    (Stuck.mk reason rest').fault ending' = (Stuck.mk reason rest).fault ending := by
  cases rest with
  | nil => rw [List.head?_eq_none_iff.1 hhead, hend rfl]
  | cons t after =>
    obtain ⟨after', rfl⟩ := List.head?_eq_some_iff.1 hhead
    rfl

namespace Tokens

/-- The token with a number. The end counts as the token after the last and has a region, too. -/
def tokenAt (tokens : Tokens) (i : Nat) : Option (Token ⊕ Span) :=
  (tokens.items.map Sum.inl ++ [.inr tokens.ending])[i]?

variable {tokens other : Tokens}

/-- Tokens that agree up to one with a number begin with the same ones, and the next of them is the
same; if none is next, their ends are the same. -/
theorem exists_of_tokenAt_eq {used rest : List Token} (hitems : tokens.items = used ++ rest)
    (h : ∀ j ≤ used.length, other.tokenAt j = tokens.tokenAt j) :
    ∃ rest', other.items = used ++ rest' ∧ rest'.head? = rest.head? ∧
      (rest = [] → other.ending = tokens.ending) := by
  obtain ⟨items, ending⟩ := tokens
  obtain ⟨items', ending'⟩ := other
  dsimp only at hitems
  subst hitems
  unfold tokenAt at h
  dsimp only at h ⊢
  -- The induction is on the tokens before the number.
  induction used generalizing items' with
  | nil =>
    refine ⟨items', rfl, ?_⟩
    have hfirst := h 0 (Nat.le_refl 0)
    cases rest <;> cases items' <;> simp_all
  | cons t used ih =>
    have hfirst := h 0 (Nat.zero_le _)
    cases items' with
    | nil => simp at hfirst
    | cons u items' =>
      obtain rfl : u = t := by simpa using hfirst
      have htail (j : Nat) (hj : j ≤ used.length) :=
        h (j + 1) (Nat.succ_le_succ hj)
      obtain ⟨rest', rfl, hrest⟩ := ih items' fun j hj => by simpa using htail j hj
      exact ⟨rest', rfl, hrest⟩

/-- A fault is that of the first wrong token, the one with a number. -/
structure FirstWrong (tokens : Tokens) (i : Nat) (fault : Fault) : Prop where
  /-- Reading fails at this token for the cause of the fault. -/
  fails : tokens.FailsAt i fault.cause
  /-- The fault lies in the region of the token. -/
  span_eq : fault.span = some (tokens.spanAt i)
  /-- The tokens before it can be completed to a program. -/
  viable : ∃ more, ∀ ending, ∃ program,
    parse ⟨tokens.items.take i ++ more, ending⟩ = .ok program
  /-- All tokens that agree up to this one have the same fault. -/
  blamed : ∀ other : Tokens, (∀ j ≤ i, other.tokenAt j = tokens.tokenAt j) →
    parse other = .error fault

end Tokens

/-- The reader of a program behind separators points at the first wrong token. -/
theorem Parser.points_program (ts : List Token) :
    Reading.Points (fun us stuck => statements (Token.skipSeparators us) = .error stuck)
      (Reading.Begins fun us => ∃ program, Grammar.SpellsProgram Stmt.StopsAt program us) ts := by
  refine Reading.points_dropWhile (fun us stuck => Iff.rfl) fun lead mid hl _ =>
    (points_statements mid).mono ?_
  rintro us ⟨more, program, hs⟩
  exact ⟨more, program, lead, us ++ more, hl, hs, by simp⟩

/-- Tokens that are not read as a program fail at the first one that fits nowhere. -/
theorem parse_fails_first {tokens : Tokens} {fault : Fault} (h : parse tokens = .error fault) :
    ∃ i, tokens.FirstWrong i fault := by
  obtain ⟨⟨reason, rest⟩, hs⟩ := Tokens.exists_stuck h
  obtain ⟨used, hitems, ⟨more, program, hprogram⟩, hsame⟩ :=
    Parser.points_program tokens.items reason rest hs
  have hnumber : tokens.items.length - rest.length = used.length := by
    rw [hitems, List.length_append]
    omega
  have hfails := Tokens.failsAt_of_stuck hs
  dsimp only at hfails
  rw [hnumber] at hfails
  have hfault := hfails.reports
  rw [h, Except.error.injEq] at hfault
  subst hfault
  refine ⟨used.length, hfails, rfl, ⟨more, fun ending => ⟨program, ?_⟩⟩, fun other hagree => ?_⟩
  · rw [hitems, List.take_left]
    exact Parser.parse_eq_ok.2 hprogram
  · obtain ⟨rest', hother, hhead, hend⟩ := Tokens.exists_of_tokenAt_eq hitems hagree
    have hs' := hsame rest' hhead
    rw [← hother] at hs'
    rw [Tokens.parse_of_stuck hs', Stuck.fault_of_head hhead hend, ← Tokens.parse_of_stuck hs, h]

/-- The tokens of `x = )`. -/
def strayTokens : Tokens :=
  ⟨[⟨.name "x", ⟨0, 1, 1, 1⟩, "x"⟩, ⟨.symbol .assign, ⟨2, 3, 1, 3⟩, "="⟩,
    ⟨.symbol .closeParen, ⟨4, 5, 1, 5⟩, ")"⟩], ⟨5, 5, 1, 6⟩⟩

/-- A parenthesis in place of a value is the first wrong token. -/
theorem parse_fails_first_stray :
    parse strayTokens = .error ⟨.expectedExpression ")", some ⟨4, 5, 1, 5⟩⟩ ∧
      ∃ i, strayTokens.FirstWrong i ⟨.expectedExpression ")", some ⟨4, 5, 1, 5⟩⟩ := by
  have hparse : parse strayTokens = .error ⟨.expectedExpression ")", some ⟨4, 5, 1, 5⟩⟩ := by cbv
  exact ⟨hparse, parse_fails_first hparse⟩

end QuantumScript
