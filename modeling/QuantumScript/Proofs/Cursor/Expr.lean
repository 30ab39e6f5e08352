import QuantumScript.Proofs.Cursor.Loop
import QuantumScript.Proofs.Cursor.Program

/-!
# Expressions are read with a cursor

The routines for expressions follow the readers of expressions. They call each other at one place in
one direction only, down to the primary expressions; what calls an expression inside an expression
has taken a token before. So each routine is treated under the hypothesis that expressions are read
from all lists that are short enough, and the expressions themselves close the circle at the end
(`follows_expression`).
-/

namespace QuantumScript

open Token Reading

namespace Cursor

variable {items ts : List Token} {rank bound : Nat} {e : Cursor Expr}

/-! ## Lists -/

/-- A round of a list, by what is read as an item and behind it. -/
theorem round_items {α β γ : Type} {item : Cursor α} {finish : List α → Cursor β}
    {first : (ts : List Token) → Reading γ ts} {f : γ → α}
    {reading : List α → (ts : List Token) → Reading β ts}
    (more : List α → γ → (ts : List Token) → Reading β ts)
    (hitem : ∀ ts, ts.length ≤ bound → Follows items 0 item ts ((first ts).map f))
    (hreading : ∀ state ts, reading state ts = pastNewlines ts fun rest _ =>
      (first rest).andThen fun a rest _ => pastNewlines rest fun rest _ => more state a rest)
    (hmore : ∀ state a t after (again : Cursor β), t.isSymbol .comma = true →
      Follows items 0 again after (reading (state ++ [f a]) after) →
        Follows items 0 again after (more state a (t :: after)))
    (hlast : ∀ state a ts, ts.head?.any (·.isSymbol .comma) = false →
      Follows items 0 (finish (state ++ [f a])) ts (more state a ts)) :
    RoundFollows items 0 bound (itemRound item) finish reading := by
  intro state us hus last again hfinish hagain
  have hlead := length_skipNewlines_le us
  simp only [itemRound, bind_assoc, ite_bind]
  rw [hreading]
  refine follows_pastNewlines ?_
  refine follows_andThen_of (hitem _ (by omega)) fun a rest hrest => ?_
  refine follows_pastNewlines ?_
  have htail := length_skipNewlines_le rest
  rcases head_cases (·.isSymbol .comma) (skipNewlines rest) with ⟨t, after, hnext, ht⟩ | hnot
  · rw [hnext, List.length_cons] at htail
    rw [hnext]
    exact follows_accept ht (hmore state a t after _ ht (hagain (state ++ [f a]) after (by omega)))
  · exact follows_reject hnot (hfinish _ _ (by omega) (hlast state a _ hnot))

/-- Without a comma the closing symbol comes behind an item. -/
theorem moreItems_of_not_comma {close : Symbol} {want : Expectation} {item : Expr}
    (h : ts.head?.any (·.isSymbol .comma) = false) :
    Parser.moreItems close want item ts =
      (takeSymbol close want ts).map fun t => ([item], t.span) := by
  cases ts with
  | nil => rw [Parser.moreItems]; rfl
  | cons t after =>
    rw [Parser.moreItems, takeSymbol, take, if_neg (by simpa using h)]
    split <;> rfl

section Inside

variable (he : ∀ rest, rest.length < bound → Follows items 0 e rest (Parser.expression rest))

include he

/-- The reader of an expression in brackets follows its reading, if that of expressions does. -/
theorem follows_enclosed {close : Symbol} {want : Expectation} (hbound : ts.length < bound) :
    Follows items 0 (withRegion (enclosed e close want)) ts (Parser.enclosed close want ts) := by
  unfold enclosed Parser.enclosed
  rw [withRegion_bind]
  refine follows_pastNewlines ?_
  rw [withRegion_bind]
  have hlead := Nat.lt_of_le_of_lt (length_skipNewlines_le ts) hbound
  refine follows_andThen (he _ hlead) fun item rest _ => ?_
  rw [withRegion_bind]
  exact follows_pastNewlines follows_withRegion_expect

/-- A round of a list of expressions. -/
theorem round_list (close : Symbol) (want : Expectation) {size : Nat} (hbound : size < bound) :
    RoundFollows items 0 size (itemRound e)
      (fun found => withRegion (expectSymbol close want >>= fun _ => pure found))
      fun state ts =>
        (Parser.someItems close want ts).map fun (others, last) => (state ++ others, last) := by
  have hitem : ∀ ts, ts.length ≤ size → Follows items 0 e ts ((Parser.expression ts).map id) :=
    fun ts hts => follows_map_id.2 (he ts (Nat.lt_of_le_of_lt hts hbound))
  refine round_items (fun state item ts => (Parser.moreItems close want item ts).map
    fun (others, last) => (state ++ others, last)) hitem ?_ ?_ ?_
  · intro state ts
    rw [Parser.someItems]
    simp only [map_pastNewlines, map_andThen]
  · intro state item t after again ht h
    simp only [id_eq, List.append_assoc] at h
    rw [Parser.moreItems, if_pos ht, Reading.behind, map_widen, map_map]
    exact follows_widen.2 h
  · intro state item ts hnot
    rw [moreItems_of_not_comma hnot, map_map]
    exact follows_withRegion_expect

/-- A list is read. -/
theorem follows_list {close : Symbol} {want : Expectation} (hbound : ts.length < bound) :
    Follows items 0 (withRegion (list e close want)) ts (Parser.items close want ts) := by
  have hlead := length_skipNewlines_le ts
  unfold list Parser.items
  rw [withRegion_bind, nextIs_eq]
  refine follows_skipNewlines ?_
  rw [withRegion_bind]
  refine follows_check ?_
  cases hclose : (skipNewlines ts).head?.any (·.isSymbol close) with
  | true =>
    simp only [if_true]
    exact follows_widen.2 follows_withRegion_expect
  | false =>
    have hloop := follows_loop (round_list he close want hbound) [] hlead
    rw [← withRegion_bind] at hloop
    simp only [List.nil_append] at hloop
    rw [Parser.someItems] at hloop
    simp only [Bool.false_eq_true, if_false]
    rw [Parser.someItems]
    exact follows_pastNewlines_skipNewlines.1 (follows_map_id.1 hloop)

/-- A primary expression is read. -/
theorem follows_primary (hbound : ts.length ≤ bound) :
    Follows items rank (primary e) ts (Parser.primary ts) := by
  unfold primary
  refine follows_peek ?_
  cases ts with
  | nil =>
    rw [Parser.primary]
    exact follows_stuck _
  | cons t after =>
    have hafter : after.length < bound := hbound
    rw [Parser.primary]
    dsimp only [List.head?_cons]
    cases t.kind with
    | number value => exact follows_advance (follows_token _ t after)
    | text value => exact follows_advance (follows_token _ t after)
    | name value => exact follows_advance (follows_token _ t after)
    | newline => exact follows_stuck _
    | keyword word =>
      cases word with
      | yes | no | null => exact follows_advance (follows_token _ t after)
      | _ => exact follows_stuck _
    | symbol sign =>
      cases sign with
      | openParen =>
        refine follows_advance (follows_behind.2 ?_)
        exact follows_of_withRegion (follows_enclosed he hafter)
      | openBracket =>
        refine follows_advance (follows_behind.2 ?_)
        exact follows_map (follows_list he hafter) fun _ => rfl
      | _ => exact follows_stuck _

/-- A round of the suffixes. -/
theorem round_suffixed (hbound : ts.length ≤ bound) :
    RoundFollows items 0 ts.length (suffixRound e) pure Parser.suffixes := by
  intro state us hus finish again hfinish hagain
  simp only [suffixRound, bind_assoc, ite_bind]
  cases us with
  | nil =>
    rw [Parser.suffixes]
    refine follows_reject rfl (follows_reject rfl (follows_reject rfl ?_))
    exact follows_nothing state []
  | cons t after =>
    have hafter : after.length < bound := Nat.lt_of_lt_of_le hus hbound
    have hmore (e : Expr) (rest : List Token) (hrest : rest.length < after.length) :
        Follows items 0 (again e) rest (Parser.suffixes e rest) :=
      hagain e rest (Nat.lt_succ_of_lt hrest)
    rw [Parser.suffixes]
    split
    · rename_i hkind
      refine follows_accept (by simp [isSymbol, hkind]) (follows_loose_behind.2 ?_)
      exact follows_andMaybe (follows_list he hafter) fun _ rest hrest => hmore _ rest hrest
    · rename_i hkind
      refine follows_reject (by simp [isSymbol, hkind]) ?_
      refine follows_accept (by simp [isSymbol, hkind]) (follows_loose_behind.2 ?_)
      exact follows_andMaybe follows_withRegion_expectName fun _ rest hrest => hmore _ rest hrest
    · rename_i hkind
      refine follows_reject (by simp [isSymbol, hkind]) ?_
      refine follows_reject (by simp [isSymbol, hkind]) ?_
      refine follows_accept (by simp [isSymbol, hkind]) (follows_loose_behind.2 ?_)
      exact follows_andMaybe (follows_enclosed he hafter) fun _ rest hrest => hmore _ rest hrest
    · rename_i hparen hdot hbracket
      refine follows_reject (by simpa [isSymbol] using hparen) ?_
      refine follows_reject (by simpa [isSymbol] using hdot) ?_
      refine follows_reject (by simpa [isSymbol] using hbracket) ?_
      exact follows_nothing state (t :: after)

/-- A primary expression is read with its suffixes. -/
theorem follows_suffixed (hbound : ts.length ≤ bound) :
    Follows items rank (suffixed e) ts
      ((Parser.primary ts).andMaybe fun e rest _ => Parser.suffixes e rest) := by
  unfold suffixed
  refine follows_andMaybe (follows_primary he hbound) fun e rest hrest => ?_
  have hrest := Nat.le_trans (Nat.le_of_lt hrest) hbound
  have hloop := follows_loop (round_suffixed he hrest) e (Nat.le_refl _)
  rwa [bind_pure] at hloop

/-- An expression with unary operators is read. -/
theorem follows_unary (hbound : ts.length ≤ bound) :
    Follows items Routine.unary.rank (unary e) ts (Parser.unary ts) := by
  refine follows_watched (fun self us hus hself => ?_) hbound
  refine follows_peek ?_
  cases us with
  | nil =>
    have hnone : Follows items (Routine.unary.rank + 1) (suffixed e) []
        ((Parser.primary []).andMaybe fun e rest _ => Parser.suffixes e rest) :=
      follows_suffixed he hus
    rw [Parser.primary] at hnone
    rw [Parser.unary]
    exact hnone
  | cons t after =>
    rw [Parser.unary]
    dsimp only [List.head?_cons, Option.bind_some]
    cases UnaryOp.ofKind? t.kind with
    | some op =>
      refine follows_advance (follows_behind.2 ?_)
      exact follows_map (hself after (Nat.lt_succ_self _)) fun _ => rfl
    | none => exact follows_suffixed he hus

/-- A power is read. -/
theorem follows_power (hbound : ts.length ≤ bound) :
    Follows items Routine.power.rank (power e) ts (Parser.power ts) := by
  refine follows_watched (fun self us hus hself => ?_) hbound
  rw [Parser.power]
  refine follows_andMaybe (follows_unary he hus) fun base rest hrest => ?_
  cases rest with
  | nil =>
    rw [Parser.exponent]
    exact follows_reject rfl (follows_nothing base [])
  | cons t after =>
    rw [Parser.exponent]
    split
    · rename_i ht
      refine follows_accept ht (follows_loose_behind.2 ?_)
      exact follows_map (hself after (Nat.lt_of_succ_lt hrest)) fun _ => rfl
    · rename_i ht
      exact follows_reject (by simpa using ht) (follows_nothing base (t :: after))

omit he in
/-- A round of a rung, whose operands are read with the rungs above it. -/
theorem round_chain (rung : Rung) {rungs : List Rung}
    (hchain : ∀ ts, ts.length ≤ bound →
      Follows items Routine.power.rank (chain e rungs) ts (Parser.chain rungs ts))
    (hbound : ts.length ≤ bound) :
    RoundFollows items 0 ts.length (rungRound rung (chain e rungs)) pure
      (Parser.chainRest rung rungs) := by
  intro state us hus finish again hfinish hagain
  unfold rungRound
  rw [bind_assoc]
  refine follows_peek ?_
  cases us with
  | nil =>
    rw [Parser.chainRest]
    exact follows_nothing state []
  | cons t after =>
    have hafter : after.length ≤ bound := Nat.le_trans (Nat.le_of_lt hus) hbound
    rw [Parser.chainRest]
    dsimp only [List.head?_cons, Option.bind_some]
    cases rung.joint? t.kind with
    | none => exact follows_nothing state (t :: after)
    | some joint =>
      dsimp only
      rw [bind_assoc]
      refine follows_advance (follows_loose_behind.2 ?_)
      rw [bind_assoc]
      refine follows_andMaybe ((hchain after hafter).mono (Nat.zero_le _)) fun right rest hrest => ?_
      exact hagain (joint.join state right) rest (Nat.lt_succ_of_lt hrest)

/-- A chain of operators is read. -/
theorem follows_chain (rungs : List Rung) :
    ∀ ts, ts.length ≤ bound →
      Follows items Routine.power.rank (chain e rungs) ts (Parser.chain rungs ts) := by
  induction rungs with
  | nil =>
    intro ts hbound
    rw [Parser.chain]
    exact follows_power he hbound
  | cons rung rungs ih =>
    intro ts hbound
    rw [Parser.chain]
    refine follows_andMaybe (ih ts hbound) fun left rest hrest => ?_
    have hrest := Nat.le_trans (Nat.le_of_lt hrest) hbound
    have hloop := follows_loop (round_chain rung ih hrest) left (Nat.le_refl _)
    rwa [bind_pure] at hloop

end Inside

/-- An expression is read. -/
theorem follows_expression (ts : List Token) :
    Follows items Routine.expression.rank expression ts (Parser.expression ts) := by
  refine follows_watched (fun self us _ hself => ?_) (Nat.le_refl ts.length)
  unfold assignment
  rw [Parser.expression]
  refine follows_andMaybe (follows_chain hself _ us (Nat.le_refl _)) fun left rest hrest => ?_
  cases rest with
  | nil =>
    rw [Parser.assignment]
    exact follows_rejectRegion rfl (follows_nothing left [])
  | cons t after =>
    unfold Parser.assignment
    by_cases ht : t.isSymbol .assign = true
    · rw [if_pos ht]
      refine follows_acceptRegion ht ?_
      cases left with
      | name target span =>
        refine follows_loose_behind.2 ?_
        exact follows_map (hself after (Nat.lt_of_succ_lt hrest)) fun _ => rfl
      | _ => exact follows_fail fun _ => rfl
    · rw [if_neg ht]
      exact follows_rejectRegion (by simpa using ht) (follows_nothing left (t :: after))

end Cursor

end QuantumScript
