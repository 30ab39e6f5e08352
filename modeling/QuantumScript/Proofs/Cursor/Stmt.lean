import QuantumScript.Program.Parser.Stmt
import QuantumScript.Proofs.Cursor.Expr

/-!
# Programs are read with a cursor

The routines for statements follow the readers of statements. A block is entered behind its opening
brace only, so the statements in it are read from shorter lists. The cursor goes back in one place,
where no `else` comes behind the line ends after a block (`follows_otherwise`): it stands then where
the block ended, and nothing is taken twice.
-/

namespace QuantumScript

open Token Reading

namespace Cursor

variable {items ts : List Token} {rank bound : Nat}

/-! ## Parts of statements -/

/-- Without a comma the closing parenthesis comes behind a parameter. -/
theorem moreParameters_of_not_comma {name : String}
    (h : ts.head?.any (·.isSymbol .comma) = false) :
    Parser.moreParameters name ts =
      (takeSymbol .closeParen .parenAfterParameters ts).map fun _ => [name] := by
  cases ts with
  | nil => rw [Parser.moreParameters]; rfl
  | cons t after =>
    rw [Parser.moreParameters, takeSymbol, take, if_neg (by simpa using h)]
    split <;> rfl

/-- A round of the parameters. -/
theorem round_parameters (items : List Token) (bound : Nat) :
    RoundFollows items 0 bound (itemRound (expectName .parameterName))
      (fun found => expectSymbol .closeParen .parenAfterParameters >>= fun _ => pure found)
      fun state ts => (Parser.someParameters ts).map fun others => state ++ others := by
  refine round_items (fun state name ts => (Parser.moreParameters name.1 ts).map
    fun others => state ++ others) (fun _ _ => follows_expectName) ?_ ?_ ?_
  · intro state ts
    rw [Parser.someParameters]
    simp only [map_pastNewlines, map_andThen]
  · intro state name t after again ht h
    simp only [List.append_assoc] at h
    rw [Parser.moreParameters, if_pos ht, Reading.behind, map_widen, map_map]
    exact follows_widen.2 h
  · intro state name ts hnot
    rw [moreParameters_of_not_comma hnot, map_map]
    exact follows_map follows_expect fun _ => rfl

/-- The parameters of a function are read. -/
theorem follows_parameters : Follows items 0 parameters ts (Parser.parameters ts) := by
  unfold parameters list Parser.parameters
  rw [nextIs_eq]
  refine follows_skipNewlines (follows_check ?_)
  cases hclose : (skipNewlines ts).head?.any (·.isSymbol .closeParen) with
  | true =>
    simp only [if_true]
    exact follows_widen.2 (follows_map follows_expect fun _ => rfl)
  | false =>
    have hloop := follows_loop (round_parameters items _) [] (Nat.le_refl (skipNewlines ts).length)
    simp only [List.nil_append] at hloop
    rw [Parser.someParameters] at hloop
    simp only [Bool.false_eq_true, if_false]
    rw [Parser.someParameters]
    exact follows_pastNewlines_skipNewlines.1 (follows_map_id.1 hloop)

/-- The condition behind a keyword is read. -/
theorem follows_condition {word : Keyword} :
    Follows items rank (condition word) ts (Parser.condition word ts) := by
  unfold condition Parser.condition
  refine follows_andThen follows_expect fun _ rest _ => ?_
  refine follows_andThen ((follows_expression rest).mono (Nat.zero_le _)) fun e rest _ => ?_
  exact follows_map follows_expect fun _ => rfl

/-- The clause behind `for` is read. -/
theorem follows_forClause : Follows items rank forClause ts (Parser.forClause ts) := by
  unfold forClause Parser.forClause
  refine follows_andThen follows_expect fun _ rest _ => ?_
  refine follows_andThen_of follows_expectName fun name rest _ => ?_
  refine follows_andThen follows_expect fun _ rest _ => ?_
  refine follows_andThen ((follows_expression rest).mono (Nat.zero_le _)) fun e rest _ => ?_
  exact follows_map follows_expect fun _ => rfl

/-- The value that may follow `return` is read. -/
theorem follows_returnValue : Follows items 0 returnValue ts (Parser.returnValue ts) := by
  unfold returnValue
  refine follows_peek ?_
  cases ts with
  | nil => exact follows_nothing none []
  | cons t after =>
    unfold Parser.returnValue
    dsimp only [List.head?_cons]
    split
    · exact follows_nothing none (t :: after)
    · refine follows_loosen.2 ?_
      exact follows_map ((follows_expression _).mono (Nat.zero_le _)) fun _ => rfl

/-- The other name that may follow an imported one is read. -/
theorem follows_nickname : Follows items rank nickname ts (Parser.nickname ts) := by
  unfold nickname
  cases ts with
  | nil => exact follows_reject rfl (follows_nothing none [])
  | cons t after =>
    unfold Parser.nickname
    dsimp only
    split
    · rename_i ht
      exact follows_accept ht (follows_loose_behind.2 (follows_map_of follows_expectName fun _ => rfl))
    · rename_i ht
      exact follows_reject (by simpa using ht) (follows_nothing none (t :: after))

/-! ## Blocks -/

/-- A block ends at its closing brace, or fails where there are no tokens left. -/
theorem blockBody_of_end (h : ts = [] ∨ ts.head?.any (·.isSymbol .closeBrace) = true) :
    Parser.blockBody ts = (takeSymbol .closeBrace .blockEnd ts).map fun _ => [] := by
  cases ts with
  | nil => rw [Parser.blockBody]; rfl
  | cons t after =>
    have ht : t.isSymbol .closeBrace = true := by simpa using h
    rw [Parser.blockBody, takeSymbol, take, if_pos ht, if_pos ht]
    rfl

section Blocks

variable {s : Cursor Stmt}
  (hs : ∀ rest, rest.length < bound → Follows items 0 s rest (Parser.statement rest))

include hs

/-- A round of a block. -/
theorem round_block {size : Nat} (hbound : size < bound) :
    RoundFollows items 0 size (blockRound s)
      (fun found => expectSymbol .closeBrace .blockEnd >>= fun _ => pure found)
      fun state ts => (Parser.blockBody ts).map fun others => state ++ others := by
  intro state us hus finish again hfinish hagain
  have hend (h : us = [] ∨ us.head?.any (·.isSymbol .closeBrace) = true) :
      Follows items 0 (expectSymbol .closeBrace .blockEnd >>= fun _ => pure state) us
        ((Parser.blockBody us).map fun others => state ++ others) := by
    rw [blockBody_of_end h, map_map]
    exact follows_map follows_expect fun _ => by rw [List.append_nil]
  simp only [blockRound, bind_assoc, ite_bind]
  refine follows_check ?_
  cases hclose : us.head?.any (·.isSymbol .closeBrace) with
  | true => exact hend (.inr hclose)
  | false =>
    simp only [Bool.false_eq_true, if_false]
    refine follows_isAtEnd ?_
    cases us with
    | nil => exact hend (.inl rfl)
    | cons t after =>
      have ht : ¬ t.isSymbol .closeBrace = true := ne_true_of_eq_false hclose
      rw [Parser.blockBody, if_neg ht, map_andThen]
      refine follows_andThen (hs _ (Nat.lt_of_le_of_lt hus hbound)) fun item rest hrest => ?_
      rw [map_pastSeparators]
      refine follows_pastSeparators ?_
      have htail := length_skipSeparators_le rest
      have hmore := hagain (state ++ [item]) (skipSeparators rest) (by omega)
      simp only [List.append_assoc] at hmore
      rw [map_map]
      exact hmore

/-- The statements of a block are read. -/
theorem follows_blockBody (hbound : ts.length < bound) :
    Follows items 0 (blockBody s) ts (Parser.blockBody ts) := by
  have hloop := follows_loop (round_block hs hbound) [] (Nat.le_refl _)
  simp only [List.nil_append] at hloop
  exact follows_map_id.1 hloop

/-- A block is read. -/
theorem follows_block (hbound : ts.length ≤ bound) :
    Follows items rank (block s) ts (Parser.block ts) := by
  have hlead := length_skipNewlines_le ts
  unfold block
  rw [Parser.block]
  refine follows_pastNewlines ?_
  refine follows_andThen follows_expect fun opening rest hrest => ?_
  have htail := length_skipSeparators_le rest
  refine follows_pastSeparators ?_
  exact follows_map (follows_blockBody hs (by omega)) fun _ => rfl

/-! ## Conditions -/

omit hs in
/-- Behind a keyword that is accepted a reading goes on. -/
theorem follows_acceptKeyword {α : Type} {yes no : Cursor α} {word : Keyword} {want : Expectation}
    {next : (rest : List Token) → Reading α rest} (ht : ts.head?.any (·.isKeyword word) = true)
    (h : ∀ after, after.length < ts.length → Follows items 0 yes after (next after)) :
    Follows items rank
      (accept (·.isKeyword word) >>= fun passed => if passed = true then yes else no) ts
      ((takeKeyword word want ts).andThen fun _ rest _ => next rest) := by
  cases ts with
  | nil => cases ht
  | cons t after =>
    rw [takeKeyword, take, if_pos (show t.isKeyword word = true from ht)]
    exact follows_accept ht (follows_token_andThen.2 (h after (Nat.lt_succ_self _)))

omit hs in
/-- A condition is a statement that starts with its keyword. -/
theorem follows_conditional_iff {c : Cursor Stmt} {want : Expectation}
    (ht : ts.head?.any (·.isKeyword .cond) = true) :
    Follows items rank c ts ((takeKeyword .cond want ts).andThen fun t rest _ =>
        Parser.conditional t.span rest) ↔
      Follows items rank c ts (Parser.statement ts) := by
  cases ts with
  | nil => cases ht
  | cons t after =>
    have hkind : t.kind = .keyword .cond := by simpa [isKeyword] using ht
    rw [takeKeyword, take, if_pos (show t.isKeyword .cond = true from ht), Parser.statement, hkind]
    exact follows_token_andThen.trans follows_behind.symm

section Branches

variable {c : Cursor Stmt} (hc : ∀ rest, rest.length < bound →
  rest.head?.any (·.isKeyword .cond) = true → Follows items 0 c rest (Parser.statement rest))

include hc

/-- What follows `else` is read. -/
theorem follows_branch (hbound : ts.length < bound) :
    Follows items 0 (branch s c) ts (Parser.branch ts) := by
  have hlead := length_skipNewlines_le ts
  unfold branch
  rw [Parser.branch, nextIs_eq]
  refine follows_skipNewlines (follows_check ?_)
  cases hcond : (skipNewlines ts).head?.any (·.isKeyword .cond) with
  | true =>
    simp only [if_true]
    exact follows_widen.2 ((follows_conditional_iff hcond).2 (hc _ (by omega) hcond))
  | false =>
    have hblock : Follows items 0 (block s) (skipNewlines ts) (Parser.block (skipNewlines ts)) :=
      follows_block hs (Nat.le_trans hlead (Nat.le_of_lt hbound))
    simp only [Bool.false_eq_true, if_false]
    rw [Parser.block] at hblock ⊢
    exact follows_map (follows_pastNewlines_skipNewlines.1 hblock) fun _ => rfl

/-- The `else` that may follow a block is read. -/
theorem follows_otherwise (hbound : ts.length < bound) :
    Follows items 0 (otherwise s c) ts (Parser.otherwise ts) := by
  have hlead := length_skipNewlines_le ts
  unfold otherwise
  rw [Parser.otherwise, nextIs_eq]
  refine follows_place fun saved hahead hsize => follows_skipNewlines ?_
  cases hword : (skipNewlines ts).head?.any (·.isKeyword .otherwise) with
  | true =>
    simp only [if_true]
    refine follows_loosen.2 (follows_widen.2 (follows_acceptKeyword hword fun after hafter => ?_))
    exact follows_map (follows_branch hs hc (by omega)) fun _ => rfl
  | false =>
    simp only [Bool.false_eq_true, if_false]
    exact follows_reject hword (follows_moveTo none hahead hsize)

end Branches

/-- A condition is read, from its keyword on. -/
theorem follows_conditional (hbound : ts.length ≤ bound)
    (ht : ts.head?.any (·.isKeyword .cond) = true) :
    Follows items rank (conditional s) ts (Parser.statement ts) := by
  refine follows_recursive
    (p := fun us => us.length ≤ bound ∧ us.head?.any (·.isKeyword .cond) = true)
    (fun self us hus hself => ?_) ⟨hbound, ht⟩
  obtain ⟨hbound, ht⟩ := hus
  cases us with
  | nil => cases ht
  | cons t after =>
    have hkind : t.kind = .keyword .cond := by simpa [isKeyword] using ht
    have hafter : after.length < bound := hbound
    rw [Parser.statement, hkind]
    refine follows_advance (follows_behind.2 ?_)
    rw [Parser.conditional]
    refine follows_andThen follows_condition fun test rest hrest => ?_
    refine follows_andMaybe (follows_block hs (by omega)) fun yes rest hrest => ?_
    -- Behind the block a list is shorter than the one that starts with the keyword.
    have hs' : ∀ rest, rest.length < after.length + 1 →
        Follows items 0 s rest (Parser.statement rest) :=
      fun rest hrest => hs rest (by omega)
    have hc : ∀ rest, rest.length < after.length + 1 →
        rest.head?.any (·.isKeyword .cond) = true →
          Follows items 0 self rest (Parser.statement rest) :=
      fun rest hrest ht => hself rest ⟨by omega, ht⟩ hrest
    exact follows_loose_map (follows_otherwise hs' hc (by omega)) fun _ => rfl

/-- A loop with a condition is read, from its keyword on. -/
theorem follows_whileLoop {t : Token} (hbound : ts.length < bound) (hk : t.kind = .keyword .whileLoop) :
    Follows items rank (whileLoop s) (t :: ts) (Parser.statement (t :: ts)) := by
  rw [Parser.statement, hk]
  refine follows_advance (follows_behind.2 ?_)
  refine follows_andThen follows_condition fun test rest hrest => ?_
  exact follows_map (follows_block hs (by omega)) fun _ => rfl

/-- A loop through an array is read, from its keyword on. -/
theorem follows_forLoop {t : Token} (hbound : ts.length < bound) (hk : t.kind = .keyword .forLoop) :
    Follows items rank (forLoop s) (t :: ts) (Parser.statement (t :: ts)) := by
  rw [Parser.statement, hk]
  refine follows_advance (follows_behind.2 ?_)
  refine follows_andThen follows_forClause fun clause rest hrest => ?_
  exact follows_map (follows_block hs (by omega)) fun _ => rfl

/-- The declaration of a function is read, from its keyword on. -/
theorem follows_function {t : Token} (hbound : ts.length < bound) (hk : t.kind = .keyword .function) :
    Follows items rank (function s) (t :: ts) (Parser.statement (t :: ts)) := by
  rw [Parser.statement, hk]
  refine follows_advance (follows_behind.2 ?_)
  refine follows_andThen_of follows_expectName fun name rest hname => ?_
  refine follows_andThen follows_expect fun _ rest hopen => ?_
  refine follows_andThen follows_parameters fun params rest hparams => ?_
  exact follows_map (follows_block hs (by omega)) fun _ => rfl

end Blocks

/-- A return is read, from its keyword on. -/
theorem follows_giveBack {t : Token} (hk : t.kind = .keyword .giveBack) :
    Follows items rank giveBack (t :: ts) (Parser.statement (t :: ts)) := by
  rw [Parser.statement, hk]
  refine follows_advance (follows_token_andMaybe.2 ?_)
  exact follows_loose_map follows_returnValue fun _ => rfl

/-- An import is read, from its keyword on. -/
theorem follows_importing {t : Token} (hk : t.kind = .keyword .importing) :
    Follows items rank importing (t :: ts) (Parser.statement (t :: ts)) := by
  rw [Parser.statement, hk]
  refine follows_advance (follows_behind.2 ?_)
  refine follows_andMaybe_of follows_expectName fun library rest hrest => ?_
  exact follows_loose_map follows_nickname fun _ => rfl

/-- No expression is read where there are no tokens left. -/
theorem expression_nil : Parser.expression [] = .error ⟨.expression, []⟩ := by
  have hchain (rungs : List Rung) : Parser.chain rungs [] = .error ⟨.expression, []⟩ := by
    induction rungs with
    | nil =>
      rw [Parser.chain, Parser.power, Parser.unary]
      rfl
    | cons rung rungs ih =>
      rw [Parser.chain, ih]
      rfl
  rw [Parser.expression, hchain]
  rfl

/-- A statement is read. -/
theorem follows_statement (ts : List Token) :
    Follows items Routine.statement.rank statement ts (Parser.statement ts) := by
  refine follows_watched (fun self us _ hself => ?_) (Nat.le_refl ts.length)
  refine follows_peek ?_
  cases us with
  | nil =>
    have hexpr : Follows items (Routine.statement.rank + 1)
        (expression >>= fun e => pure (Stmt.expr e)) [] ((Parser.expression []).map Stmt.expr) :=
      follows_map (follows_expression _) fun _ => rfl
    rw [expression_nil] at hexpr
    rw [Parser.statement]
    exact hexpr
  | cons t after =>
    have hexpr : Follows items (Routine.statement.rank + 1)
        (expression >>= fun e => pure (Stmt.expr e)) (t :: after)
        ((Parser.expression (t :: after)).map Stmt.expr) :=
      follows_map (follows_expression _) fun _ => rfl
    have hafter := Nat.lt_succ_self after.length
    dsimp only [List.head?_cons, Option.map_some]
    cases hk : t.kind with
    | keyword word =>
      cases word with
      | function => exact follows_function hself hafter hk
      | cond => exact follows_conditional hself (Nat.le_refl _) (by simp [isKeyword, hk])
      | whileLoop => exact follows_whileLoop hself hafter hk
      | forLoop => exact follows_forLoop hself hafter hk
      | giveBack => exact follows_giveBack hk
      | importing => exact follows_importing hk
      | _ =>
        rw [Parser.statement, hk]
        exact hexpr
    | symbol sign =>
      rw [Parser.statement, hk]
      cases sign with
      | openBrace => exact follows_map (follows_block hself (Nat.le_refl _)) fun _ => rfl
      | _ => exact hexpr
    | _ =>
      rw [Parser.statement, hk]
      exact hexpr

/-! ## Programs -/

/-- A value that is read from all tokens there are. -/
def entire {α : Type} (value : Except Stuck α) : Except Stuck (Found α 1) :=
  match value with
  | .error stuck => .error stuck
  | .ok value => .ok ⟨value, [], Nat.one_pos⟩

/-- Everything is read where no tokens are left. -/
theorem follows_entire {α : Type} (a : α) : Follows items rank (pure a) [] (entire (.ok a)) :=
  follows_pure a _

/-- Items that are found one after the other are put together from the front. -/
theorem map_append_cons {α : Type} (found : List α) (item : α) (others : Except Stuck (List α)) :
    (others.map fun others => item :: others).map (fun others => found ++ others) =
      others.map fun others => found ++ [item] ++ others := by
  cases others <;> simp [Except.map]

/-- Nothing is found before the first item. -/
theorem map_nil_append {α : Type} (others : Except Stuck (List α)) :
    others.map (fun others => [] ++ others) = others := by
  cases others <;> rfl

/-- A round of a program. -/
theorem round_program (items : List Token) (bound : Nat) :
    RoundFollows items 0 bound programRound pure fun state ts =>
      entire ((Parser.statements ts).map fun others => state ++ others) := by
  intro state us hus finish again hfinish hagain
  simp only [programRound, bind_assoc, ite_bind]
  refine follows_isAtEnd ?_
  cases us with
  | nil =>
    have hend : (Parser.statements []).map (fun others => state ++ others) = .ok state := by
      rw [Parser.statements, Except.map, List.append_nil]
    rw [hend]
    exact follows_entire state
  | cons t after =>
    have hstatement : Follows items 0 statement (t :: after)
        ((Parser.statement (t :: after)).map id) :=
      follows_map_id.2 (follows_statement (t :: after))
    refine follows_bind_of (Nat.le_refl _) hstatement ?_ ?_
    · intro stuck hstuck
      rw [Parser.statements, hstuck]
      rfl
    · intro found hfound
      have htail := length_skipSeparators_le found.rest
      have hshorter := found.shorter
      have hmore := hagain (state ++ [found.value]) (skipSeparators found.rest) (by omega)
      have hstep : Parser.statements (t :: after) =
          (Parser.statements (skipSeparators found.rest)).map fun others =>
            found.value :: others := by
        rw [Parser.statements, hfound]
      rw [hstep, map_append_cons]
      exact follows_skip hmore

/-- A program is read. -/
theorem follows_program : Follows items 0 program ts
    (entire (Parser.statements (skipSeparators ts))) := by
  have hloop := follows_loop (round_program items _) [] (Nat.le_refl (skipSeparators ts).length)
  rw [bind_pure, map_nil_append] at hloop
  exact follows_skip hloop

end Cursor

end QuantumScript
