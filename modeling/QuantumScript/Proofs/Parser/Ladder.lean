import QuantumScript.Proofs.Grammar.Expr
import QuantumScript.Proofs.Reading

/-!
# The readers of expressions, level by level

`atLevel` is the reader of expressions at a level, and `more` the reader of what may follow an
expression of the next tighter level. A reader at a level reads at the next one and goes on with
`more` (`yields_atLevel`); only the unary operators, which come first, are read differently
(`yields_unary_signed`, `yields_unary_plain`).
-/

namespace QuantumScript

namespace Level

/-- The rung of the operators of a level, if they associate to the left. -/
def rung? : Level → Option Rung
  | disjunction => some .disjunction
  | conjunction => some .conjunction
  | equality => some .equality
  | comparison => some .comparison
  | sum => some .sum
  | product => some .product
  | _ => none

/-- The rungs from a level on, down to the tightest. -/
def rungs : Level → List Rung
  | disjunction => [.disjunction, .conjunction, .equality, .comparison, .sum, .product]
  | conjunction => [.conjunction, .equality, .comparison, .sum, .product]
  | equality => [.equality, .comparison, .sum, .product]
  | comparison => [.comparison, .sum, .product]
  | sum => [.sum, .product]
  | product => [.product]
  | _ => []

/-- The level of the operators of a rung. -/
def ofRung : Rung → Level
  | .disjunction => disjunction
  | .conjunction => conjunction
  | .equality => equality
  | .comparison => comparison
  | .sum => sum
  | .product => product

/-- A level has a rung when it is the level of that rung. -/
theorem rung?_eq_some {level : Level} {rung : Rung} :
    level.rung? = some rung ↔ level = ofRung rung := by
  cases level <;> cases rung <;> decide

/-- A level with a rung is looser than the next one. -/
theorem lt_next_of_rung {level : Level} {rung : Rung} (h : level.rung? = some rung) :
    level < level.next := by
  rw [rung?_eq_some] at h
  subst h
  cases rung <;> decide

/-- A rung has the operators of its level. -/
theorem joint?_eq_some {rung : Rung} {kind : Token.Kind} {joint : Joint} :
    rung.joint? kind = some joint ↔ kind = joint.kind ∧ joint.level = ofRung rung := by
  constructor
  · intro hj
    unfold Rung.joint? at hj
    split at hj <;> cases hj <;> exact ⟨rfl, rfl⟩
  · rintro ⟨rfl, hl⟩
    rcases joint with op | op <;> cases op <;> cases rung <;> first | rfl | cases hl

/-- A token that is no operator of a rung does not link at its level. -/
theorem link?_ne_of_joint?_eq_none {level : Level} {rung : Rung} (h : level.rung? = some rung)
    {kind : Token.Kind} (hj : rung.joint? kind = none) : kind.link? ≠ some level := by
  rw [rung?_eq_some] at h
  subst h
  intro hl
  unfold Token.Kind.link? at hl
  split at hl <;> cases rung <;> cases hl <;> cases hj

/-- A token that does not link at the level of a rung is none of its operators. -/
theorem joint?_eq_none {rung : Rung} {kind : Token.Kind} (hl : kind.link? ≠ some (ofRung rung)) :
    rung.joint? kind = none := by
  rw [Option.eq_none_iff_forall_ne_some]
  intro joint hj
  obtain ⟨rfl, hlevel⟩ := joint?_eq_some.1 hj
  rw [joint.link?_kind, hlevel] at hl
  exact hl rfl

end Level

namespace Parser

open Token Reading

variable {level : Level} {ts rest : List Token} {e : Expr}

/-- Reads an expression at a level. -/
def atLevel (level : Level) (ts : List Token) : Reading Expr ts :=
  match level with
  | .assignment => expression ts
  | .unary => unary ts
  | .suffix => (primary ts).andMaybe fun e rest _ => suffixes e rest
  | .primary => primary ts
  | level => chain level.rungs ts

/-- Reads what may follow an expression of the next tighter level. -/
def more (level : Level) (e : Expr) (ts : List Token) : LooseReading Expr ts :=
  match level.rung? with
  | some rung => chainRest rung level.next.rungs e ts
  | none =>
    match level with
    | .assignment => assignment e ts
    | .power => exponent e ts
    | .suffix => suffixes e ts
    | _ => .nothing e ts

/-- What may follow an operand of a rung. -/
theorem more_of_rung {rung : Rung} (h : level.rung? = some rung) :
    more level e ts = chainRest rung level.next.rungs e ts := by
  unfold more
  rw [h]

/-- The operands of a rung are read on the tighter ones. -/
theorem atLevel_next_of_rung {rung : Rung} (h : level.rung? = some rung) :
    atLevel level.next ts = chain level.next.rungs ts := by
  cases level <;> first | rfl | cases h

/-- An expression of some rungs is one of the tighter ones with what follows it. -/
theorem yields_chain_cons {rung : Rung} {rungs : List Rung} :
    Yields (chain (rung :: rungs) ts) e rest ↔
      ∃ a mid, Yields (chain rungs ts) a mid ∧ Yields (chainRest rung rungs a mid) e rest := by
  conv =>
    lhs
    rw [chain, yields_andMaybe]
  simp only [exists_prop]

/-- An expression at a level is one at the next level with what follows it. -/
theorem yields_atLevel (hu : level ≠ .unary) (hp : level ≠ .primary) :
    Yields (atLevel level ts) e rest ↔
      ∃ a mid, Yields (atLevel level.next ts) a mid ∧ Yields (more level a mid) e rest := by
  cases level with
  | assignment =>
    simp only [atLevel, more, Level.next, Level.rung?]
    rw [expression, yields_andMaybe]
    simp only [exists_prop]
    rfl
  | disjunction | conjunction | equality | comparison | sum | product =>
    exact yields_chain_cons
  | power =>
    simp only [atLevel, more, Level.next, Level.rung?, Level.rungs]
    rw [chain, power, yields_andMaybe]
    simp only [exists_prop]
  | suffix =>
    simp only [atLevel, more, Level.next, Level.rung?, yields_andMaybe, exists_prop]
  | unary => exact absurd rfl hu
  | primary => exact absurd rfl hp

/-- A unary operator is read with its operand. -/
theorem yields_unary_signed {sign : Token} {op : UnaryOp} (h : sign.kind = op.kind) :
    Yields (unary (sign :: ts)) e rest ↔
      ∃ operand, Yields (unary ts) operand rest ∧
        e = .unary op operand (sign.span.through operand.span) := by
  rw [unary, UnaryOp.ofKind?_eq_some.2 h]
  simp only [yields_behind, yields_map]
  constructor
  · rintro ⟨a, ha, rfl⟩
    exact ⟨a, ha, rfl⟩
  · rintro ⟨a, ha, rfl⟩
    exact ⟨a, ha, rfl⟩

/-- Without a unary operator, a primary expression is read with its suffixes. -/
theorem yields_unary_plain {t : Token} (h : UnaryOp.ofKind? t.kind = none) :
    Yields (unary (t :: ts)) e rest ↔ Yields (atLevel .suffix (t :: ts)) e rest := by
  rw [unary, h]
  rfl

/-- Where no token goes on, nothing follows an expression. -/
theorem yields_more_of_stops (h : Stops level rest) : Yields (more level e rest) e rest := by
  cases rest with
  | nil =>
    cases level <;> simp [more, Level.rung?, assignment, chainRest, exponent, suffixes]
  | cons t after =>
    rw [stops_cons] at h
    have hl : t.kind.link? ≠ some level := fun hl => Nat.lt_irrefl _ (h level hl)
    -- The rungs have one argument in common; the other levels each have a token of their own.
    unfold more
    split
    · rename_i rung hr
      rw [Level.rung?_eq_some.1 hr] at hl
      rw [chainRest, Level.joint?_eq_none hl]
      simp
    · split
      · have hk : t.isSymbol .assign = false := by
          simp only [isSymbol, decide_eq_false_iff_not]
          exact fun hk => hl (by rw [hk]; rfl)
        rw [assignment.eq_def]
        dsimp only
        rw [if_neg (by simp [hk]), yields_nothing]
        exact ⟨rfl, rfl⟩
      · have hk : t.isSymbol .power = false := by
          simp only [isSymbol, decide_eq_false_iff_not]
          exact fun hk => hl (by rw [hk]; rfl)
        rw [exponent, if_neg (by simp [hk])]
        simp
      · rw [suffixes]
        split
        · rename_i hk
          exact absurd (by rw [hk]; rfl) hl
        · rename_i hk
          exact absurd (by rw [hk]; rfl) hl
        · rename_i hk
          exact absurd (by rw [hk]; rfl) hl
        · simp
      · simp

end Parser

end QuantumScript
