import QuantumScript.Program.Parser.Expr

/-!
# How tightly expressions are bound

A `Level` says how tightly the parts of an expression are bound together. An expression may stand
where one of its own level or a looser one may stand; elsewhere it needs parentheses.

Each operator has a level, the token that writes it, and the levels of its operands. A token that
goes on with an expression links it to what follows at some level, and `Stops` says that no token
goes on at a level or a tighter one.
-/

namespace QuantumScript

/-- How tightly the parts of an expression are bound together, from the loosest. -/
inductive Level
  | assignment
  | disjunction
  | conjunction
  | equality
  | comparison
  | sum
  | product
  | power
  | unary
  | suffix
  | primary
deriving DecidableEq, Repr

namespace Level

/-- The place of a level among all, from the loosest. -/
def tightness : Level → Nat
  | assignment => 0
  | disjunction => 1
  | conjunction => 2
  | equality => 3
  | comparison => 4
  | sum => 5
  | product => 6
  | power => 7
  | unary => 8
  | suffix => 9
  | primary => 10

instance : LE Level := ⟨fun a b => a.tightness ≤ b.tightness⟩

instance : LT Level := ⟨fun a b => a.tightness < b.tightness⟩

instance (a b : Level) : Decidable (a ≤ b) :=
  inferInstanceAs (Decidable (a.tightness ≤ b.tightness))

instance (a b : Level) : Decidable (a < b) :=
  inferInstanceAs (Decidable (a.tightness < b.tightness))

/-- The next tighter level; the tightest has none but itself. -/
def next : Level → Level
  | assignment => disjunction
  | disjunction => conjunction
  | conjunction => equality
  | equality => comparison
  | comparison => sum
  | sum => product
  | product => power
  | power => unary
  | unary => suffix
  | suffix => primary
  | primary => primary

/-- Every level is at most as tight as itself. -/
theorem le_refl (a : Level) : a ≤ a :=
  Nat.le_refl a.tightness

/-- The order of levels is transitive. -/
theorem le_trans {a b c : Level} (hab : a ≤ b) (hbc : b ≤ c) : a ≤ c :=
  Nat.le_trans hab hbc

/-- A level looser than another is looser than all that are tighter. -/
theorem lt_of_lt_of_le {a b c : Level} (hab : a < b) (hbc : b ≤ c) : a < c :=
  Nat.lt_of_lt_of_le hab hbc

/-- A level is at most as tight as the next one. -/
theorem le_next (a : Level) : a ≤ a.next := by
  cases a <;> decide

/-- Every level is as tight as the loosest. -/
theorem assignment_le (a : Level) : assignment ≤ a :=
  Nat.zero_le a.tightness

/-- The next level is one step tighter. -/
theorem tightness_next {a : Level} (h : a ≠ primary) : a.next.tightness = a.tightness + 1 := by
  revert h
  cases a <;> decide

/-- A looser level is the same, or the next one after it is looser still. -/
theorem eq_or_next_le {a b : Level} (h : a ≤ b) : a = b ∨ a.next ≤ b := by
  revert h
  cases a <;> cases b <;> decide

/-- No level is tighter than the primary expressions. -/
theorem le_primary (a : Level) : a ≤ primary := by
  cases a <;> decide

/-- What holds at a level, and at each level if it holds at the next one, holds at every looser
level. -/
theorem descend {P : Level → Prop} {tight : Level} (start : P tight)
    (step : ∀ a, a ≠ primary → a.next ≤ tight → P a.next → P a) {loose : Level}
    (h : loose ≤ tight) : P loose := by
  -- The induction is on how much tighter the one level is than the other.
  generalize hn : tight.tightness - loose.tightness = n
  induction n generalizing loose with
  | zero =>
    rcases eq_or_next_le h with rfl | hnext
    · exact start
    · by_cases hp : loose = primary
      · subst hp
        have : tight = primary := by
          revert h
          cases tight <;> decide
        exact this ▸ start
      · have hlt : loose.next.tightness ≤ tight.tightness := hnext
        rw [tightness_next hp] at hlt
        omega
  | succ n ih =>
    rcases eq_or_next_le h with rfl | hnext
    · exact start
    · have hp : loose ≠ primary := by
        rintro rfl
        have : tight.tightness ≤ primary.tightness := tight.le_primary
        omega
      have hdiff : tight.tightness - loose.next.tightness = n := by
        rw [tightness_next hp]
        omega
      exact step loose hp hnext (ih hnext hdiff)

end Level

/-! ## Operators -/

namespace Joint

/-- The level of an operator between two expressions. -/
def level : Joint → Level
  | logical .or => .disjunction
  | logical .and => .conjunction
  | binary .equal | binary .notEqual => .equality
  | binary .less | binary .lessEqual | binary .greater | binary .greaterEqual => .comparison
  | binary .add | binary .sub => .sum
  | binary .mul | binary .div | binary .rem => .product
  | binary .pow => .power

/-- The token that writes an operator between two expressions. -/
def kind : Joint → Token.Kind
  | logical .or => .keyword .or
  | logical .and => .keyword .and
  | binary .equal => .symbol .equal
  | binary .notEqual => .symbol .notEqual
  | binary .less => .symbol .less
  | binary .lessEqual => .symbol .lessEqual
  | binary .greater => .symbol .greater
  | binary .greaterEqual => .symbol .greaterEqual
  | binary .add => .symbol .plus
  | binary .sub => .symbol .minus
  | binary .mul => .symbol .star
  | binary .div => .symbol .slash
  | binary .rem => .symbol .percent
  | binary .pow => .symbol .power

/-- The level of the left operand: the operator's own, so that it associates to the left, but for
`**`, whose base stands at the level of the unary operators. -/
def leftLevel (joint : Joint) : Level :=
  if joint = .binary .pow then .unary else joint.level

/-- The level of the right operand: the next tighter one, but for `**`, which associates to the
right. -/
def rightLevel (joint : Joint) : Level :=
  if joint = .binary .pow then .power else joint.level.next

/-- No operator between two expressions is tighter than `**`. -/
theorem level_le_power (joint : Joint) : joint.level ≤ .power := by
  rcases joint with op | op <;> cases op <;> decide

end Joint

/-- The token that writes a unary operator. -/
def UnaryOp.kind : UnaryOp → Token.Kind
  | neg => .symbol .minus
  | not => .keyword .not

/-- A token writes at most one unary operator. -/
theorem UnaryOp.ofKind?_eq_some {kind : Token.Kind} {op : UnaryOp} :
    ofKind? kind = some op ↔ kind = op.kind := by
  constructor
  · intro h
    unfold ofKind? at h
    split at h <;> cases h <;> rfl
  · rintro rfl
    cases op <;> rfl

/-! ## Tokens -/

namespace Token

/-- The expression that a token makes by itself. -/
def atom? (t : Token) : Option Expr :=
  match t.kind with
  | .number value => some (.number value t.span)
  | .text value => some (.text value t.span)
  | .name name => some (.name name t.span)
  | .keyword .yes => some (.bool true t.span)
  | .keyword .no => some (.bool false t.span)
  | .keyword .null => some (.null t.span)
  | _ => none

/-- Whether a token may be the first of an expression without a unary operator before it. -/
def startsPlain (t : Token) : Bool :=
  match t.kind with
  | .number _ | .text _ | .name _ | .keyword .yes | .keyword .no | .keyword .null
  | .symbol .openParen | .symbol .openBracket => true
  | _ => false

/-- Whether a token may be the first of an expression. -/
def startsExpr (t : Token) : Bool :=
  t.startsPlain || t.kind = .symbol .minus || t.kind = .keyword .not

/-- The level at which a token links the expression before it to what follows. -/
def Kind.link? : Kind → Option Level
  | .symbol .assign => some .assignment
  | .keyword .or => some .disjunction
  | .keyword .and => some .conjunction
  | .symbol .equal | .symbol .notEqual => some .equality
  | .symbol .less | .symbol .lessEqual | .symbol .greater | .symbol .greaterEqual =>
    some .comparison
  | .symbol .plus | .symbol .minus => some .sum
  | .symbol .star | .symbol .slash | .symbol .percent => some .product
  | .symbol .power => some .power
  | .symbol .openParen | .symbol .dot | .symbol .openBracket => some .suffix
  | _ => none

end Token

/-- No token goes on with an expression at a level or a tighter one. -/
def Stops (level : Level) (rest : List Token) : Prop :=
  ∀ t ∈ rest.head?, ∀ link ∈ t.kind.link?, link < level

/-- Nothing goes on at the end of the tokens. -/
theorem stops_nil (level : Level) : Stops level [] := by
  intro t ht
  cases ht

/-- Whether an expression goes on is told by the next token alone. -/
theorem stops_cons {level : Level} {t : Token} {rest : List Token} :
    Stops level (t :: rest) ↔ ∀ link ∈ t.kind.link?, link < level := by
  simp [Stops]

/-- A token that links nothing stops every expression. -/
theorem stops_of_link?_eq_none {level : Level} {t : Token} {rest : List Token}
    (h : t.kind.link? = none) : Stops level (t :: rest) := by
  rw [stops_cons, h]
  intro link hl
  cases hl

/-- What stops a loose expression stops a tight one. -/
theorem Stops.mono {a b : Level} {rest : List Token} (h : Stops a rest) (hab : a ≤ b) :
    Stops b rest :=
  fun t ht link hl => Level.lt_of_lt_of_le (h t ht link hl) hab

/-- The tokens after an operator's left operand go on at the operator's level. -/
theorem Joint.link?_kind (joint : Joint) : joint.kind.link? = some joint.level := by
  rcases joint with op | op <;> cases op <;> rfl

/-- No token is both a line end and the start of an expression. -/
theorem Token.isNewline_of_startsExpr {t : Token} (h : t.startsExpr) : t.isNewline = false := by
  simp only [isNewline, decide_eq_false_iff_not]
  intro hk
  simp [startsExpr, startsPlain, hk] at h

end QuantumScript
