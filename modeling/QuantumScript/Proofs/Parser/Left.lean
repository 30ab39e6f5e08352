import QuantumScript.Program.Parser.Stmt
import QuantumScript.Proofs.Token.Within

/-!
# What readers leave

A reader takes tokens from the front of a list, so what it leaves is the end of that list, and so is
what is left where it is stuck. Each way of putting readings together has one lemma about it, and
the readers follow by the recursion they are defined with (`Parser.expression_left`,
`Parser.statement_left`). A program that cannot be read is therefore reported at one of its tokens,
or at their end (`parse_located`).
-/

namespace QuantumScript

namespace Reading

open Token

variable {α β : Type} {n : Nat} {ts : List Token}

/-- The tokens that a reading leaves, stuck or not. -/
def left : Except Stuck (Found α n) → List Token
  | .error stuck => stuck.rest
  | .ok found => found.rest

/-- A changed reading leaves what it left before. -/
theorem left_map {f : α → β} {reading : Reading α ts} (h : left reading <:+ ts) :
    left (reading.map f) <:+ ts := by
  cases reading <;> exact h

/-- A changed loose reading leaves what it left before. -/
theorem left_loose_map {f : α → β} {reading : LooseReading α ts} (h : left reading <:+ ts) :
    left (LooseReading.map f reading) <:+ ts := by
  cases reading <;> exact h

/-- A widened reading leaves what it left before. -/
theorem left_widen {us : List Token} {reading : Reading α us} (hus : us <:+ ts)
    (h : left reading <:+ us) : left (reading.widen hus.length_le : Reading α ts) <:+ ts := by
  cases reading <;> exact List.IsSuffix.trans h hus

/-- A loosened reading leaves what it left before. -/
theorem left_loosen {reading : Reading α ts} (h : left reading <:+ ts) :
    left reading.loosen <:+ ts := by
  cases reading <;> exact h

/-- A reading behind a token leaves an end of what comes with the token. -/
theorem left_behind {t : Token} {reading : Reading α ts} (h : left reading <:+ ts) :
    left (Reading.behind t reading) <:+ t :: ts :=
  left_widen (List.suffix_cons t ts) h

/-- A loose reading behind a token leaves an end of what comes with the token. -/
theorem left_loose_behind {t : Token} {reading : Reading α ts} (h : left reading <:+ ts) :
    left (LooseReading.behind t reading) <:+ t :: ts :=
  left_loosen (left_behind h)

/-- A second reading that leaves an end of what the first leaves leaves an end of all. -/
theorem left_andMaybe {reading : Reading α ts}
    {next : α → (mid : List Token) → mid.length < ts.length → LooseReading β mid}
    (hr : left reading <:+ ts) (hn : ∀ a mid h, left (next a mid h) <:+ mid) :
    left (reading.andMaybe next) <:+ ts := by
  unfold Reading.andMaybe
  cases reading with
  | error stuck => exact hr
  | ok first =>
    have hsecond := hn first.value first.rest first.shorter
    dsimp only
    split
    · rename_i stuck hs
      rw [hs] at hsecond
      exact hsecond.trans hr
    · rename_i second hs
      rw [hs] at hsecond
      exact hsecond.trans hr

/-- A second reading that takes tokens too, and leaves an end of what the first leaves, leaves an
end of all. -/
theorem left_andThen {reading : Reading α ts}
    {next : α → (mid : List Token) → mid.length < ts.length → Reading β mid}
    (hr : left reading <:+ ts) (hn : ∀ a mid h, left (next a mid h) <:+ mid) :
    left (reading.andThen next) <:+ ts :=
  left_andMaybe hr fun a mid h => left_loosen (hn a mid h)

/-- A reading behind line ends leaves an end of all. -/
theorem left_pastNewlines
    {next : (mid : List Token) → mid.length ≤ ts.length → Reading α mid}
    (hn : ∀ mid h, left (next mid h) <:+ mid) : left (pastNewlines ts next) <:+ ts :=
  left_widen (List.dropWhile_suffix _) (hn _ _)

/-- A reading behind separators leaves an end of all. -/
theorem left_pastSeparators
    {next : (mid : List Token) → mid.length ≤ ts.length → Reading α mid}
    (hn : ∀ mid h, left (next mid h) <:+ mid) : left (pastSeparators ts next) <:+ ts :=
  left_widen (List.dropWhile_suffix _) (hn _ _)

/-- The reading of a token that is tested leaves an end of all. -/
theorem left_take (test : Token → Bool) (want : Expectation) (ts : List Token) :
    left (take test want ts) <:+ ts := by
  unfold take
  cases ts with
  | nil => exact List.suffix_refl _
  | cons t rest =>
    dsimp only
    split
    · exact List.suffix_cons t rest
    · exact List.suffix_refl _

/-- The reading of a name leaves an end of all. -/
theorem left_takeName (want : Expectation) (ts : List Token) : left (takeName want ts) <:+ ts := by
  unfold takeName
  cases ts with
  | nil => exact List.suffix_refl _
  | cons t rest =>
    dsimp only
    split
    · exact List.suffix_cons t rest
    · exact List.suffix_refl _

end Reading

namespace Parser

open Token Reading

/-! ## Expressions -/

mutual

/-- The reader of expressions leaves an end of all. -/
theorem expression_left (ts : List Token) : left (expression ts) <:+ ts := by
  rw [expression]
  exact left_andMaybe (chain_left Rung.all ts) fun e rest _ => assignment_left e rest
termination_by (ts.length, 5 + Rung.all.length)

/-- The reader of what is assigned leaves an end of all. -/
theorem assignment_left (e : Expr) (ts : List Token) : left (assignment e ts) <:+ ts := by
  match ts with
  | [] =>
    rw [assignment]
    exact List.suffix_refl _
  | t :: after =>
    unfold assignment
    split
    · split
      · exact left_loose_behind (left_map (expression_left after))
      · exact List.suffix_refl _
    · exact List.suffix_refl _
termination_by (ts.length, 0)

/-- The reader of operands of rungs leaves an end of all. -/
theorem chain_left (rungs : List Rung) (ts : List Token) : left (chain rungs ts) <:+ ts := by
  match rungs with
  | [] =>
    rw [chain]
    exact power_left ts
  | rung :: rungs =>
    rw [chain]
    exact left_andMaybe (chain_left rungs ts) fun e rest _ => chainRest_left rung rungs e rest
termination_by (ts.length, 4 + rungs.length)

/-- The reader of what follows an operand leaves an end of all. -/
theorem chainRest_left (rung : Rung) (rungs : List Rung) (e : Expr) (ts : List Token) :
    left (chainRest rung rungs e ts) <:+ ts := by
  match ts with
  | [] =>
    rw [chainRest]
    exact List.suffix_refl _
  | t :: after =>
    rw [chainRest]
    split
    · exact List.suffix_refl _
    · exact left_loose_behind (left_andMaybe (chain_left rungs after) fun right rest _ =>
        chainRest_left rung rungs _ rest)
termination_by (ts.length, 0)

/-- The reader of powers leaves an end of all. -/
theorem power_left (ts : List Token) : left (power ts) <:+ ts := by
  rw [power]
  exact left_andMaybe (unary_left ts) fun e rest _ => exponent_left e rest
termination_by (ts.length, 3)

/-- The reader of exponents leaves an end of all. -/
theorem exponent_left (e : Expr) (ts : List Token) : left (exponent e ts) <:+ ts := by
  match ts with
  | [] =>
    rw [exponent]
    exact List.suffix_refl _
  | t :: after =>
    rw [exponent]
    split
    · exact left_loose_behind (left_map (power_left after))
    · exact List.suffix_refl _
termination_by (ts.length, 0)

/-- The reader of unary operators leaves an end of all. -/
theorem unary_left (ts : List Token) : left (unary ts) <:+ ts := by
  match ts with
  | [] =>
    rw [unary]
    exact List.suffix_refl _
  | t :: after =>
    rw [unary]
    split
    · exact left_behind (left_map (unary_left after))
    · exact left_andMaybe (primary_left (t :: after)) fun e rest _ => suffixes_left e rest
termination_by (ts.length, 2)

/-- The reader of suffixes leaves an end of all. -/
theorem suffixes_left (e : Expr) (ts : List Token) : left (suffixes e ts) <:+ ts := by
  match ts with
  | [] =>
    rw [suffixes]
    exact List.suffix_refl _
  | t :: after =>
    rw [suffixes]
    split
    · exact left_loose_behind (left_andMaybe (items_left _ _ after) fun _ rest _ =>
        suffixes_left _ rest)
    · exact left_loose_behind (left_andMaybe (left_takeName _ after) fun _ rest _ =>
        suffixes_left _ rest)
    · exact left_loose_behind (left_andMaybe (enclosed_left _ _ after) fun _ rest _ =>
        suffixes_left _ rest)
    · exact List.suffix_refl _
termination_by (ts.length, 0)

/-- The reader of expressions in brackets leaves an end of all. -/
theorem enclosed_left (close : Symbol) (want : Expectation) (ts : List Token) :
    left (enclosed close want ts) <:+ ts := by
  rw [enclosed]
  exact left_pastNewlines fun mid _ => left_andThen (expression_left mid) fun _ rest _ =>
    left_pastNewlines fun last _ => left_map (left_take _ _ last)
termination_by (ts.length, 6 + Rung.all.length)
decreasing_by simp only [Prod.lex_def]; omega

/-- The reader of items leaves an end of all. -/
theorem items_left (close : Symbol) (want : Expectation) (ts : List Token) :
    left (items close want ts) <:+ ts := by
  rw [items]
  split
  · exact left_pastNewlines fun mid _ => left_map (left_take _ _ mid)
  · exact someItems_left close want ts
termination_by (ts.length, 7 + Rung.all.length)

/-- The reader of at least one item leaves an end of all. -/
theorem someItems_left (close : Symbol) (want : Expectation) (ts : List Token) :
    left (someItems close want ts) <:+ ts := by
  rw [someItems]
  exact left_pastNewlines fun mid _ => left_andThen (expression_left mid) fun e rest _ =>
    left_pastNewlines fun last _ => moreItems_left close want e last
termination_by (ts.length, 6 + Rung.all.length)
decreasing_by all_goals (simp only [Prod.lex_def]; omega)

/-- The reader of what follows an item leaves an end of all. -/
theorem moreItems_left (close : Symbol) (want : Expectation) (e : Expr) (ts : List Token) :
    left (moreItems close want e ts) <:+ ts := by
  match ts with
  | [] =>
    rw [moreItems]
    exact List.suffix_refl _
  | t :: after =>
    rw [moreItems]
    split
    · exact left_behind (left_map (someItems_left close want after))
    · split
      · exact List.suffix_cons t after
      · exact List.suffix_refl _
termination_by (ts.length, 0)

/-- The reader of primary expressions leaves an end of all. -/
theorem primary_left (ts : List Token) : left (primary ts) <:+ ts := by
  match ts with
  | [] =>
    rw [primary]
    exact List.suffix_refl _
  | t :: after =>
    rw [primary]
    -- Literals and names are one token; parentheses and brackets hold more.
    split
    · exact List.suffix_cons t after
    · exact List.suffix_cons t after
    · exact List.suffix_cons t after
    · exact List.suffix_cons t after
    · exact List.suffix_cons t after
    · exact List.suffix_cons t after
    · exact left_behind (left_map (enclosed_left _ _ after))
    · exact left_behind (left_map (items_left _ _ after))
    · exact List.suffix_refl _
termination_by (ts.length, 0)

end

/-! ## Statements -/

mutual

/-- The reader of at least one parameter leaves an end of all. -/
theorem someParameters_left (ts : List Token) : left (someParameters ts) <:+ ts := by
  rw [someParameters]
  exact left_pastNewlines fun mid _ => left_andThen (left_takeName _ mid) fun _ rest _ =>
    left_pastNewlines fun last _ => moreParameters_left _ last
termination_by ts.length

/-- The reader of what follows a parameter leaves an end of all. -/
theorem moreParameters_left (name : String) (ts : List Token) :
    left (moreParameters name ts) <:+ ts := by
  match ts with
  | [] =>
    rw [moreParameters]
    exact List.suffix_refl _
  | t :: after =>
    rw [moreParameters]
    split
    · exact left_behind (left_map (someParameters_left after))
    · split
      · exact List.suffix_cons t after
      · exact List.suffix_refl _
termination_by ts.length

end

/-- The reader of parameters leaves an end of all. -/
theorem parameters_left (ts : List Token) : left (parameters ts) <:+ ts := by
  unfold parameters
  split
  · exact left_pastNewlines fun mid _ => left_map (left_take _ _ mid)
  · exact someParameters_left ts

/-- The reader of conditions leaves an end of all. -/
theorem condition_left (word : Keyword) (ts : List Token) : left (condition word ts) <:+ ts := by
  exact left_andThen (left_take _ _ ts) fun _ mid _ =>
    left_andThen (expression_left mid) fun _ rest _ => left_map (left_take _ _ rest)

/-- The reader of what follows `for` leaves an end of all. -/
theorem forClause_left (ts : List Token) : left (forClause ts) <:+ ts := by
  exact left_andThen (left_take _ _ ts) fun _ mid _ =>
    left_andThen (left_takeName _ mid) fun _ mid _ =>
    left_andThen (left_take _ _ mid) fun _ mid _ =>
    left_andThen (expression_left mid) fun _ rest _ => left_map (left_take _ _ rest)

/-- The reader of what follows `return` leaves an end of all. -/
theorem returnValue_left (ts : List Token) : left (returnValue ts) <:+ ts := by
  unfold returnValue
  cases ts with
  | nil => exact List.suffix_refl _
  | cons t after =>
    dsimp only
    split
    · exact List.suffix_refl _
    · exact left_loosen (left_map (expression_left (t :: after)))

/-- The reader of other names leaves an end of all. -/
theorem nickname_left (ts : List Token) : left (nickname ts) <:+ ts := by
  unfold nickname
  cases ts with
  | nil => exact List.suffix_refl _
  | cons t after =>
    dsimp only
    split
    · exact left_loose_behind (left_map (left_takeName _ after))
    · exact List.suffix_refl _

mutual

/-- The reader of statements leaves an end of all. -/
theorem statement_left (ts : List Token) : left (statement ts) <:+ ts := by
  match ts with
  | [] =>
    rw [statement]
    exact List.suffix_refl _
  | t :: after =>
    rw [statement]
    -- A function, `if`, `while`, `for`, `return`, an import, a block and an expression.
    split
    · exact left_behind (left_andThen (left_takeName _ after) fun _ mid _ =>
        left_andThen (left_take _ _ mid) fun _ mid _ =>
        left_andThen (parameters_left mid) fun _ rest _ => left_map (block_left rest))
    · exact left_behind (conditional_left t.span after)
    · exact left_behind (left_andThen (condition_left _ after) fun _ rest _ =>
        left_map (block_left rest))
    · exact left_behind (left_andThen (forClause_left after) fun _ rest _ =>
        left_map (block_left rest))
    · exact left_andMaybe (List.suffix_cons t after) fun _ rest _ =>
        left_loose_map (returnValue_left rest)
    · exact left_behind (left_andMaybe (left_takeName _ after) fun _ rest _ =>
        left_loose_map (nickname_left rest))
    · exact left_map (block_left (t :: after))
    · exact left_map (expression_left (t :: after))
termination_by (ts.length, 1)

/-- The reader of what follows `if` leaves an end of all. -/
theorem conditional_left (span : Span) (ts : List Token) : left (conditional span ts) <:+ ts := by
  rw [conditional]
  exact left_andThen (condition_left _ ts) fun _ mid _ =>
    left_andMaybe (block_left mid) fun _ rest _ => left_loose_map (otherwise_left rest)
termination_by (ts.length, 0)

/-- The reader of `else` leaves an end of all. -/
theorem otherwise_left (ts : List Token) : left (otherwise ts) <:+ ts := by
  rw [otherwise]
  split
  · exact left_loosen (left_pastNewlines fun mid _ =>
      left_andThen (left_take _ _ mid) fun _ rest _ => left_map (branch_left rest))
  · exact List.suffix_refl _
termination_by (ts.length, 0)

/-- The reader of what follows `else` leaves an end of all. -/
theorem branch_left (ts : List Token) : left (branch ts) <:+ ts := by
  rw [branch]
  split
  · exact left_pastNewlines fun mid _ => left_andThen (left_take _ _ mid) fun t rest _ =>
      conditional_left t.span rest
  · exact left_map (block_left ts)
termination_by (ts.length, 1)

/-- The reader of blocks leaves an end of all. -/
theorem block_left (ts : List Token) : left (block ts) <:+ ts := by
  rw [block]
  exact left_pastNewlines fun mid _ => left_andThen (left_take _ _ mid) fun _ rest _ =>
    left_pastSeparators fun last _ => left_map (blockBody_left last)
termination_by (ts.length, 0)

/-- The reader of the statements of a block leaves an end of all. -/
theorem blockBody_left (ts : List Token) : left (blockBody ts) <:+ ts := by
  match ts with
  | [] =>
    rw [blockBody]
    exact List.suffix_refl _
  | t :: after =>
    rw [blockBody]
    split
    · exact List.suffix_cons t after
    · exact left_andThen (statement_left (t :: after)) fun _ rest _ =>
        left_pastSeparators fun last _ => left_map (blockBody_left last)
termination_by (ts.length, 2)
decreasing_by
  · decreasing_tactic
  · simp only [Prod.lex_def, List.length_cons] at *; omega

end

/-- The reader of a program is stuck at an end of all. -/
theorem statements_left {ts : List Token} {stuck : Stuck} (h : statements ts = .error stuck) :
    stuck.rest <:+ ts := by
  fun_induction statements ts with
  | case1 => cases h
  | case2 t after found hfound =>
    cases h
    have hleft := statement_left (t :: after)
    rwa [hfound] at hleft
  | case3 t after s rest _ hfound _ ih =>
    have hleft := statement_left (t :: after)
    rw [hfound] at hleft
    cases hs : statements (skipSeparators rest) with
    | ok others =>
      rw [hs] at h
      cases h
    | error other =>
      rw [hs] at h
      cases h
      exact (ih hs).trans ((List.dropWhile_suffix _).trans hleft)

end Parser

/-- Tokens that are not read as a program are reported at the place of one of them or at their
end. -/
theorem parse_located {P : Span → Prop} {tokens : Tokens} {fault : Fault} (ht : tokens.Located P)
    (h : parse tokens = .error fault) : fault.Located P := by
  unfold parse at h
  split at h
  · cases h
  · rename_i stuck hstuck
    cases h
    have hleft := (Parser.statements_left hstuck).trans (List.dropWhile_suffix _)
    unfold Stuck.fault
    cases hrest : stuck.rest with
    | nil => exact ⟨_, rfl, ht.2⟩
    | cons t rest =>
      rw [hrest] at hleft
      exact ⟨_, rfl, ht.1 t (hleft.subset (List.mem_cons_self ..))⟩

end QuantumScript
