import QuantumScript.Proofs.Parser.Left
import QuantumScript.Proofs.Parser.StmtAlike

/-!
# The token at which reading fails

Tokens are numbered from zero, and the end of the source counts as the token after the last one.
Tokens that are not read as a program fail at one of these numbers: the reader leaves all tokens
from this one on, and its region is the one that is reported (`Tokens.failsAt_of_stuck`). Tokens of
the same kinds fail at the same number (`parse_sameKinds_at`).
-/

namespace QuantumScript

namespace Tokens

/-- The region of the token with a number. -/
def spanAt (tokens : Tokens) (i : Nat) : Span :=
  match tokens.items[i]? with
  | some t => t.span
  | none => tokens.ending

/-- Reading fails at the token with a number, for a cause. -/
structure FailsAt (tokens : Tokens) (i : Nat) (cause : Cause) : Prop where
  /-- The number is that of a token or of the end. -/
  le : i ≤ tokens.items.length
  /-- The reader leaves the tokens from this one on. -/
  stops : ∃ reason, Parser.statements (Token.skipSeparators tokens.items) =
    .error ⟨reason, tokens.items.drop i⟩
  /-- What is reported is the region of the token. -/
  reports : parse tokens = .error ⟨cause, some (tokens.spanAt i)⟩

/-- A stuck reader reports the region of the first token that it leaves. -/
theorem fault_drop (tokens : Tokens) (i : Nat) (reason : Stuck.Reason) :
    (Stuck.mk reason (tokens.items.drop i)).fault tokens.ending =
      ⟨(Stuck.mk reason (tokens.items.drop i)).cause, some (tokens.spanAt i)⟩ := by
  have hfirst : (tokens.items.drop i).head? = tokens.items[i]? := List.head?_drop
  unfold Stuck.fault spanAt
  rw [← hfirst]
  cases tokens.items.drop i with
  | nil => rfl
  | cons t rest => rfl

/-- A stuck reader reports its fault. -/
theorem parse_of_stuck {tokens : Tokens} {stuck : Stuck}
    (h : Parser.statements (Token.skipSeparators tokens.items) = .error stuck) :
    parse tokens = .error (stuck.fault tokens.ending) := by
  unfold parse
  rw [h]

/-- Where tokens are not read as a program, the reader is stuck. -/
theorem exists_stuck {tokens : Tokens} {fault : Fault} (h : parse tokens = .error fault) :
    ∃ stuck, Parser.statements (Token.skipSeparators tokens.items) = .error stuck := by
  cases hs : Parser.statements (Token.skipSeparators tokens.items) with
  | ok program =>
    unfold parse at h
    rw [hs] at h
    cases h
  | error stuck => exact ⟨stuck, rfl⟩

/-- What a stuck reader leaves are the tokens from a number on. -/
theorem drop_of_stuck {tokens : Tokens} {stuck : Stuck}
    (h : Parser.statements (Token.skipSeparators tokens.items) = .error stuck) :
    tokens.items.drop (tokens.items.length - stuck.rest.length) = stuck.rest := by
  have hleft := (Parser.statements_left h).trans (List.dropWhile_suffix _)
  exact (List.suffix_iff_eq_drop.1 hleft).symm

/-- A stuck reader fails at the number of the first token that it leaves. -/
theorem failsAt_of_stuck {tokens : Tokens} {stuck : Stuck}
    (h : Parser.statements (Token.skipSeparators tokens.items) = .error stuck) :
    tokens.FailsAt (tokens.items.length - stuck.rest.length) stuck.cause := by
  have hdrop := drop_of_stuck h
  have hfault := tokens.fault_drop (tokens.items.length - stuck.rest.length) stuck.reason
  rw [hdrop] at hfault
  refine ⟨Nat.sub_le _ _, ⟨stuck.reason, ?_⟩, ?_⟩
  · rw [hdrop, h]
  · rw [parse_of_stuck h, hfault]

end Tokens

/-- From tokens of the same kinds programs are read that differ in places only, or reading fails at
the same token for the same cause. -/
theorem parse_sameKinds_at {tokens tokens' : Tokens}
    (h : Token.SameKinds tokens.items tokens'.items) :
    (∃ p q, parse tokens = .ok p ∧ parse tokens' = .ok q ∧ p.Same q) ∨
      ∃ i cause, tokens.FailsAt i cause ∧ tokens'.FailsAt i cause := by
  rcases Parser.statements_alike h.skipSeparators with
    ⟨p, q, hp, hq, hs⟩ | ⟨reason, rest, rest', hp, hq, hs⟩
  · unfold parse
    rw [hp, hq]
    exact .inl ⟨p, q, rfl, rfl, hs⟩
  · -- As many tokens are left of one as of the other, and all of the same kinds.
    have hlength : tokens'.items.length = tokens.items.length := by
      simpa using congrArg List.length h.symm
    have hleft : rest'.length = rest.length := by
      simpa using congrArg List.length hs.symm
    have hfails' := Tokens.failsAt_of_stuck hq
    rw [hlength, hleft, ← Stuck.cause_sameKinds hs] at hfails'
    exact .inr ⟨_, _, Tokens.failsAt_of_stuck hp, hfails'⟩

end QuantumScript
