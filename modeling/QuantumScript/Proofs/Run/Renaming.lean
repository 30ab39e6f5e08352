import QuantumScript.Proofs.Run.Atomic
import QuantumScript.Proofs.Store.Renaming

/-!
# Runs of renamed programs

A run goes through a renaming (`Run.Renames`): on the machine with renamed variables, the renamed
program does what the program does on the machine itself, and what it leaves is renamed too. The
only trace of a name is in the cause that a variable is not defined. It is proved for each part of
the evaluator from the parts that it calls, with one unit of fuel less (`Eval.renames`), and then
for whole programs (`Eval.runProgram_renames`).
-/

namespace QuantumScript

/-- A machine with renamed variables. -/
def Machine.renamed (ρ : Renaming) (m : Machine) : Machine :=
  m.mapStore (Store.renamed ρ)

/-- A cause with the variable that it names renamed. -/
def Cause.renamed (ρ : Renaming) : Cause → Cause
  | .undefinedVariable name => .undefinedVariable (ρ.name name)
  | other => other

/-- A fault with the variable that it names renamed. -/
def Fault.renamed (ρ : Renaming) (fault : Fault) : Fault :=
  { fault with cause := fault.cause.renamed ρ }

/-- An outcome with the variable that its fault names renamed. -/
def Outcome.renamed {α : Type} (ρ : Renaming) : Outcome α → Outcome α
  | .done value => .done value
  | .failed fault => .failed (fault.renamed ρ)
  | .crashed => .crashed
  | .outOfFuel => .outOfFuel

/-! ## Causes that name no variable -/

/-- A cause names no variable. -/
def Cause.Nameless (cause : Cause) : Prop :=
  ∀ name, cause ≠ .undefinedVariable name

/-- An answer fails for no cause that names a variable. -/
def NamelessAnswer {α : Type} (answer : Except Cause α) : Prop :=
  ∀ cause, answer = .error cause → cause.Nameless

variable {ρ : Renaming}

/-- A cause that names no variable is not renamed. -/
theorem Cause.Nameless.renamed {cause : Cause} (h : cause.Nameless) : cause.renamed ρ = cause := by
  cases cause with
  | undefinedVariable name => exact absurd rfl (h name)
  | _ => rfl

/-- A value names no variable. -/
theorem namelessAnswer_ok {α : Type} (a : α) : NamelessAnswer (Except.ok a) :=
  nofun

/-- A failure names no variable if its cause does not. -/
theorem namelessAnswer_error {α : Type} {cause : Cause} (h : cause.Nameless) :
    NamelessAnswer (Except.error cause : Except Cause α) := by
  rintro _ ⟨⟩
  exact h

/-- An answer that is changed names no more variables. -/
theorem NamelessAnswer.map {α β : Type} {answer : Except Cause α} (h : NamelessAnswer answer)
    (f : α → β) : NamelessAnswer (answer.map f) := by
  cases answer with
  | ok a => exact namelessAnswer_ok (f a)
  | error cause => exact namelessAnswer_error (h cause rfl)

/-- An answer that depends on another names no variable if neither does. -/
theorem NamelessAnswer.bind {α β : Type} {answer : Except Cause α} {next : α → Except Cause β}
    (h : NamelessAnswer answer) (hnext : ∀ a, NamelessAnswer (next a)) :
    NamelessAnswer (answer >>= next) := by
  cases answer with
  | ok a => exact hnext a
  | error cause => exact namelessAnswer_error (h cause rfl)

/-- A number that cannot be read names no variable. -/
theorem Native.nameless_asNumber (store : Store) (context : String) (value : Value) :
    NamelessAnswer (asNumber store context value) := by
  unfold asNumber
  split
  · exact namelessAnswer_ok _
  · exact namelessAnswer_error (by rintro _ ⟨⟩)

namespace Store

variable (store : Store)

/-- A binary operator names no variable. -/
theorem nameless_binary (op : BinaryOp) (left right : Value) :
    NamelessAnswer (store.binary op left right) := by
  unfold binary
  split
  · exact namelessAnswer_ok _
  · exact namelessAnswer_ok _
  · split
    · unfold arithmetic
      split
      iterate 3 exact namelessAnswer_ok _
      iterate 2
        split
        · exact namelessAnswer_error (by rintro _ ⟨⟩)
        · exact namelessAnswer_ok _
      iterate 7 exact namelessAnswer_ok _
    · split
      · exact namelessAnswer_ok _
      · exact namelessAnswer_error (by rintro _ ⟨⟩)

/-- A unary operator names no variable. -/
theorem nameless_unary (op : UnaryOp) (operand : Value) :
    NamelessAnswer (store.unary op operand) := by
  cases op with
  | not => exact namelessAnswer_ok _
  | neg => exact (Native.nameless_asNumber store _ operand).map _

/-- A member names no variable. -/
theorem nameless_member (object : Value) (name : String) :
    NamelessAnswer (store.member object name) := by
  unfold member
  dsimp only
  split
  · exact namelessAnswer_ok _
  · exact namelessAnswer_error (by rintro _ ⟨⟩)

/-- The place that an index names is no variable. -/
theorem nameless_indexPlace (index : Value) : NamelessAnswer (store.indexPlace index) := by
  refine (Native.nameless_asNumber store _ index).bind fun n => ?_
  split
  · exact namelessAnswer_ok _
  · exact namelessAnswer_error (by rintro _ ⟨⟩)

/-- An item at a place is no variable. -/
theorem nameless_itemAt (items : Array Value) (place : Int) :
    NamelessAnswer (itemAt items place) := by
  unfold itemAt
  split
  · exact namelessAnswer_ok _
  · exact namelessAnswer_error (by rintro _ ⟨⟩)

/-- An index names no variable. -/
theorem nameless_index (object index : Value) : NamelessAnswer (store.index object index) := by
  cases object with
  | array id => exact (store.nameless_indexPlace index).bind fun place => nameless_itemAt _ place
  | _ => exact namelessAnswer_error (by rintro _ ⟨⟩)

end Store

/-- The items of a loop name no variable. -/
theorem Eval.nameless_loopItems (items : Value) (store : Store) :
    NamelessAnswer (loopItems items store) := by
  unfold loopItems
  split
  · exact namelessAnswer_ok _
  · exact namelessAnswer_error (by rintro _ ⟨⟩)

/-- A complaint about an argument names no variable. -/
theorem Native.nameless_of_complains {store : Store} {args : List Value} {cause : Cause}
    (h : Complains store args cause) : cause.Nameless := by
  obtain ⟨_, _, _, _, rfl⟩ := h
  rintro _ ⟨⟩

/-- A call of a function of the library names no variable. -/
theorem Native.nameless_call (f : Native) (args : List Value) (m : Machine) (cause : Cause)
    (h : (f.call args m).1 = .error cause) : cause.Nameless := by
  rcases cause_of_call h with rfl | hcomplains | rfl | rfl
  · rintro _ ⟨⟩
  · exact nameless_of_complains hcomplains
  · rintro _ ⟨⟩
  · rintro _ ⟨⟩

/-- A call of a method names no variable. -/
theorem Method.nameless_call (object : Value) (method : String) (args : List Value) (m : Machine)
    (cause : Cause) (h : (call object method args m).1 = .error cause) : cause.Nameless := by
  rcases cause_of_call h with rfl | ⟨_, rfl⟩ | hcomplains
  · rintro _ ⟨⟩
  · rintro _ ⟨⟩
  · exact Native.nameless_of_complains hcomplains

/-! ## Runs and renamings -/

namespace Run

variable {α β : Type}

/-- A run leaves covered names covered, and another run does the same on the machine with renamed
variables. -/
def Renames (ρ : Renaming) (run other : Run α) : Prop :=
  ∀ m : Machine, m.store.Covered ρ → (run m).2.store.Covered ρ ∧
    other (m.renamed ρ) = ((run m).1.renamed ρ, (run m).2.renamed ρ)

/-- Yielding a value goes through a renaming. -/
theorem renames_done (value : α) : Renames ρ (Run.done value) (Run.done value) :=
  fun _ h => ⟨h, rfl⟩

/-- Having no fuel goes through a renaming. -/
theorem renames_outOfFuel : Renames ρ (Run.outOfFuel : Run α) Run.outOfFuel :=
  fun _ h => ⟨h, rfl⟩

/-- Failing for a cause that names no variable goes through a renaming. -/
theorem renames_failed {cause : Cause} (h : cause.Nameless) (span : Span) :
    Renames ρ (Run.failed cause span : Run α) (Run.failed cause span) := by
  intro m hm
  refine ⟨hm, ?_⟩
  show _ = (Outcome.failed ⟨cause.renamed ρ, some span⟩, _)
  rw [h.renamed]
  rfl

/-- A question that does not depend on names goes through a renaming. -/
theorem renames_ask {question : Store → Except Cause α} (span : Span)
    (h : ∀ store : Store, question (store.renamed ρ) = question store)
    (hnameless : ∀ store, NamelessAnswer (question store)) :
    Renames ρ (Run.ask span question) (Run.ask span question) := by
  intro m hm
  have hq : question (m.renamed ρ).store = question m.store := h m.store
  unfold ask
  rw [hq]
  cases hanswer : question m.store with
  | ok value => exact ⟨hm, rfl⟩
  | error cause =>
    refine ⟨hm, ?_⟩
    show _ = (Outcome.failed ⟨cause.renamed ρ, some span⟩, _)
    rw [(hnameless m.store cause hanswer).renamed]

/-- Reading a variable goes through a renaming. -/
theorem renames_get {name : String} (hname : ρ.covers name) (scope : ScopeId) (span : Span) :
    Renames ρ (Run.ask span fun store => store.get scope name)
      (Run.ask span fun store => store.get scope (ρ.name name)) := by
  intro m hm
  have hget : (m.renamed ρ).store.get? scope (ρ.name name) = m.store.get? scope name :=
    Store.get?_renamed hm hname
  unfold ask Store.get
  dsimp only
  rw [hget]
  cases m.store.get? scope name with
  | some value => exact ⟨hm, rfl⟩
  | none => exact ⟨hm, rfl⟩

/-- A change of the store goes through a renaming if it does so for covered stores. -/
theorem renames_change {f g : Store → Store}
    (h : ∀ store : Store, store.Covered ρ → (f store).Covered ρ ∧
      g (store.renamed ρ) = (f store).renamed ρ) :
    Renames ρ (Run.change f) (Run.change g) := by
  intro m hm
  obtain ⟨hcovered, hg⟩ := h m.store hm
  refine ⟨hcovered, ?_⟩
  show (Outcome.done (), { m with store := g (m.store.renamed ρ) }) = _
  rw [hg]
  rfl

/-- Binding a name goes through a renaming. -/
theorem renames_define {name : String} (hname : ρ.covers name) (scope : ScopeId) (value : Value) :
    Renames ρ (Run.change fun store => store.define scope name value)
      (Run.change fun store => store.define scope (ρ.name name) value) :=
  renames_change fun _ h => ⟨h.define hname, Store.define_renamed h hname⟩

/-- Adding something goes through a renaming if it does so for covered stores. -/
theorem renames_make {f g : Store → α × Store}
    (h : ∀ store : Store, store.Covered ρ → (f store).2.Covered ρ ∧
      g (store.renamed ρ) = ((f store).1, (f store).2.renamed ρ)) :
    Renames ρ (Run.make f) (Run.make g) := by
  intro m hm
  obtain ⟨hcovered, hg⟩ := h m.store hm
  have hg' : g (m.renamed ρ).store = ((f m.store).1, (f m.store).2.renamed ρ) := hg
  unfold make
  rw [hg']
  exact ⟨hcovered, rfl⟩

/-- Opening a scope goes through a renaming. -/
theorem renames_child (parent : ScopeId) :
    Renames ρ (Run.make fun store => store.child parent)
      (Run.make fun store => store.child parent) :=
  renames_make fun store h => ⟨h.child parent, store.child_renamed parent⟩

/-- A call of the library does the same with renamed variables. -/
theorem call_renamed {call : Machine → Native.Result} (h : Native.Modest call) (m : Machine) :
    call (m.renamed ρ) = ((call m).1, (call m).2.renamed ρ) := by
  rcases h with h | ⟨question, rfl⟩
  · -- An oblivious call leaves scopes and closures, so they may as well be renamed after it.
    have hcall : call (m.amid (m.renamed ρ)) = _ := h m (m.renamed ρ) m.store.sameNames_renamed
    have hafter : (call m).2.amid (m.renamed ρ) = (call m).2.renamed ρ :=
      (congrArg (Machine.renamed ρ) (h.leaves m)).symm
    rw [← hafter]
    exact hcall
  · have hd : (m.renamed ρ).store.display = m.store.display :=
      funext m.store.display_renamed
    unfold Native.input
    rw [hd]
    rfl

/-- A call of the library that names no variable goes through a renaming. -/
theorem renames_within {call : Machine → Native.Result} (span : Span) (h : Native.Modest call)
    (hnameless : ∀ m cause, (call m).1 = .error cause → cause.Nameless) :
    Renames ρ (Run.within span call) (Run.within span call) := by
  intro m hm
  obtain ⟨hscopes, hclosures, -, -⟩ := h.leaves m
  have hcovered : (call m).2.store.Covered ρ :=
    ⟨by rw [hscopes]; exact hm.scopes, by rw [hclosures]; exact hm.closures⟩
  have hcause := hnameless m
  unfold within
  rw [call_renamed h m]
  generalize call m = found at hcovered hcause
  obtain ⟨answer, after⟩ := found
  cases answer with
  | ok value => exact ⟨hcovered, rfl⟩
  | error cause =>
    refine ⟨hcovered, ?_⟩
    show _ = (Outcome.failed ⟨cause.renamed ρ, some span⟩, _)
    rw [(hcause cause rfl).renamed]
  | crash => exact ⟨hcovered, rfl⟩

/-- A choice that both make in the same way goes through a renaming if what is chosen does. -/
theorem renames_ite {test : Prop} [Decidable test] {yes yes' no no' : Run α}
    (hy : Renames ρ yes yes') (hn : Renames ρ no no') :
    Renames ρ (if test then yes else no) (if test then yes' else no') := by
  by_cases ht : test
  · rw [if_pos ht, if_pos ht]
    exact hy
  · rw [if_neg ht, if_neg ht]
    exact hn

/-- Runs one after the other go through a renaming if each of them does. -/
theorem Renames.bind {first first' : Run α} {next next' : α → Run β} (hf : Renames ρ first first')
    (hn : ∀ value, Renames ρ (next value) (next' value)) :
    Renames ρ (first >>= next) (first' >>= next') := by
  intro m hm
  obtain ⟨hcovered, hrun⟩ := hf m hm
  cases hs : first m with
  | mk outcome mid =>
    rw [hs] at hcovered hrun
    cases outcome with
    | done value =>
      rw [bind_of_done hs, bind_of_done hrun]
      exact hn value mid hcovered
    | failed fault =>
      rw [bind_of_failed hs]
      exact ⟨hcovered, bind_of_failed hrun⟩
    | crashed =>
      rw [bind_of_crashed hs]
      exact ⟨hcovered, bind_of_crashed hrun⟩
    | outOfFuel =>
      rw [bind_of_outOfFuel hs]
      exact ⟨hcovered, bind_of_outOfFuel hrun⟩

/-- A run that counts as one more function body goes through a renaming if it does otherwise. -/
theorem Renames.deeper {run other : Run α} (h : Renames ρ run other) :
    Renames ρ (Run.deeper run) (Run.deeper other) := by
  intro m hm
  obtain ⟨hcovered, hrun⟩ := h { m with depth := m.depth + 1 } hm
  refine ⟨hcovered, ?_⟩
  show (fun result : Outcome α × Machine =>
    (result.1, { result.2 with depth := result.2.depth - 1 }))
      (other { m.renamed ρ with depth := m.depth + 1 }) = _
  have hrun' : other { m.renamed ρ with depth := m.depth + 1 } = _ := hrun
  rw [hrun']
  rfl

end Run

namespace Eval

variable {limit fuel : Nat}

/-- Opening a scope with parameters goes through a renaming. -/
theorem opened_renamed {m : Machine} {params : List String} (h : m.store.Covered ρ)
    (hparams : ∀ n ∈ params, ρ.covers n) (parent : ScopeId) (args : List Value) :
    (m.opened parent params args).store.Covered ρ ∧
      (m.renamed ρ).opened parent (params.map ρ.name) args =
        (m.opened parent params args).renamed ρ := by
  obtain ⟨hcovered, hbound⟩ := bindAll_renamed args m.store.nextScope (h.child parent) hparams
  have hstore : bindAll (m.store.renamed ρ).nextScope (params.map ρ.name) args
      ((m.store.renamed ρ).child parent).2 =
        (bindAll m.store.nextScope params args (m.store.child parent).2).renamed ρ := by
    rw [m.store.nextScope_renamed, m.store.child_renamed, hbound]
  exact ⟨hcovered, congrArg (fun store => { m with store }) hstore⟩

/-- Entering a function with renamed variables fails for the same cause, or opens the same scope for
the renamed body. -/
theorem enter_renamed {m : Machine} (h : m.store.Covered ρ) (limit : Nat) (id : ClosureId)
    (args : List Value) (span : Span) :
    (∃ cause : Cause, cause.Nameless ∧
      enter limit id args span m = (.failed ⟨cause, some span⟩, m) ∧
      enter limit id args span (m.renamed ρ) = (.failed ⟨cause, some span⟩, m.renamed ρ)) ∨
    ∃ f : Closure, f.Covered ρ ∧
      enter limit id args span m =
        (.done (m.store.nextScope, f.body), m.opened f.scope f.params args) ∧
      enter limit id args span (m.renamed ρ) =
        (.done (m.store.nextScope, renamedStmts ρ f.body),
          (m.opened f.scope f.params args).renamed ρ) := by
  have hclosure : (m.renamed ρ).store.closure? id = (m.store.closure? id).map (Closure.renamed ρ) :=
    m.store.closure?_renamed id
  unfold enter
  rw [hclosure]
  cases hf : m.store.closure? id with
  | none => exact .inl ⟨.notCallable "function", by rintro _ ⟨⟩, rfl, rfl⟩
  | some f =>
    have hcovered : f.Covered ρ := h.closures f (Array.mem_of_getElem? hf)
    have hlength : (f.renamed ρ).params.length = f.params.length := List.length_map _
    dsimp only [Option.map_some]
    rw [hlength]
    by_cases hargs : args.length ≠ f.params.length
    · rw [if_pos hargs]
      exact .inl
        ⟨.wrongArity f.name (toString f.params.length) args.length, by rintro _ ⟨⟩, rfl,
          if_pos hargs⟩
    · rw [if_neg hargs]
      by_cases hlimit : limit ≤ m.depth
      · rw [if_pos hlimit]
        exact .inl
          ⟨.callDepthExceeded limit, by rintro _ ⟨⟩, rfl, (if_neg hargs).trans (if_pos hlimit)⟩
      · rw [if_neg hlimit]
        refine .inr ⟨f, hcovered, rfl, (if_neg hargs).trans ((if_neg hlimit).trans ?_)⟩
        have hparams : ∀ n ∈ f.params, ρ.covers n :=
          fun n hn => hcovered.names n (List.mem_append_left _ hn)
        rw [← (opened_renamed h hparams f.scope args).2]
        rw [← m.store.nextScope_renamed]
        rfl

/-- What the parts of the evaluator do with some fuel goes through a renaming. -/
structure Renames (limit fuel : Nat) (ρ : Renaming) : Prop where
  /-- Expressions go through a renaming. -/
  evaluate : ∀ scope e, (∀ n ∈ Expr.variables e, ρ.covers n) →
    Run.Renames ρ (Eval.evaluate limit fuel scope e) (Eval.evaluate limit fuel scope (e.renamed ρ))
  /-- Several expressions go through a renaming. -/
  evaluateAll : ∀ scope es, (∀ n ∈ exprsVariables es, ρ.covers n) →
    Run.Renames ρ (Eval.evaluateAll limit fuel scope es)
      (Eval.evaluateAll limit fuel scope (renamedExprs ρ es))
  /-- Calls go through a renaming. -/
  callValue : ∀ callee args span,
    Run.Renames ρ (Eval.callValue limit fuel callee args span)
      (Eval.callValue limit fuel callee args span)
  /-- Statements go through a renaming. -/
  execute : ∀ scope s, ρ.Covers (Stmt.variables s) (Stmt.functions s) →
    Run.Renames ρ (Eval.execute limit fuel scope s) (Eval.execute limit fuel scope (s.renamed ρ))
  /-- Several statements go through a renaming. -/
  executeAll : ∀ scope body last, ρ.Covers (stmtsVariables body) (stmtsFunctions body) →
    Run.Renames ρ (Eval.executeAll limit fuel scope body last)
      (Eval.executeAll limit fuel scope (renamedStmts ρ body) last)
  /-- Loops with a condition go through a renaming. -/
  executeWhile : ∀ scope condition body last, (∀ n ∈ Expr.variables condition, ρ.covers n) →
    ρ.Covers (Stmt.variables body) (Stmt.functions body) →
    Run.Renames ρ (Eval.executeWhile limit fuel scope condition body last)
      (Eval.executeWhile limit fuel scope (condition.renamed ρ) (body.renamed ρ) last)
  /-- The rounds of a loop through items go through a renaming. -/
  executeFor : ∀ scope binder items body last, ρ.covers binder →
    ρ.Covers (Stmt.variables body) (Stmt.functions body) →
    Run.Renames ρ (Eval.executeFor limit fuel scope binder items body last)
      (Eval.executeFor limit fuel scope (ρ.name binder) items (body.renamed ρ) last)

/-- Expressions go through a renaming, if they do with less fuel. -/
theorem evaluate_renames (ih : Renames limit fuel ρ) (scope : ScopeId) (e : Expr)
    (h : ∀ n ∈ e.variables, ρ.covers n) :
    Run.Renames ρ (evaluate limit (fuel + 1) scope e)
      (evaluate limit (fuel + 1) scope (e.renamed ρ)) := by
  cases e with
  | number | text | bool | null => exact Run.renames_done _
  | name name span => exact Run.renames_get (h name List.mem_cons_self) scope span
  | binary op left right span =>
    obtain ⟨hleft, hright⟩ := List.forall_mem_append.1 h
    exact (ih.evaluate scope left hleft).bind fun a =>
      (ih.evaluate scope right hright).bind fun b =>
        Run.renames_ask span (fun store => store.binary_renamed op a b)
          fun store => store.nameless_binary op a b
  | logical op left right span =>
    obtain ⟨hleft, hright⟩ := List.forall_mem_append.1 h
    exact (ih.evaluate scope left hleft).bind fun value =>
      Run.renames_ite (Run.renames_done value) (ih.evaluate scope right hright)
  | unary op operand span =>
    refine (ih.evaluate scope operand h).bind fun value => ?_
    refine Run.renames_ask span (fun store => ?_) fun store => store.nameless_unary op value
    cases op <;> cases value <;> rfl
  | assign name value span =>
    obtain ⟨hname, hvalue⟩ := List.forall_mem_cons.1 h
    refine (ih.evaluate scope value hvalue).bind fun found => ?_
    rw [Run.attempt_assign, Run.attempt_assign]
    exact Run.Renames.bind (Run.renames_change fun store hstore =>
      ⟨hstore.define hname, Store.assigned_renamed hstore hname⟩) fun _ => Run.renames_done found
  | call callee args span =>
    obtain ⟨hcallee, hargs⟩ := List.forall_mem_append.1 h
    exact (ih.evaluate scope callee hcallee).bind fun f =>
      (ih.evaluateAll scope args hargs).bind fun values => ih.callValue f values span
  | methodCall object method args span =>
    obtain ⟨hobject, hargs⟩ := List.forall_mem_append.1 h
    exact (ih.evaluate scope object hobject).bind fun found =>
      (ih.evaluateAll scope args hargs).bind fun values =>
        Run.renames_within span (.inl (Method.call_oblivious found method values))
          (Method.nameless_call found method values)
  | member object name span =>
    refine (ih.evaluate scope object h).bind fun found => ?_
    refine Run.renames_ask span (fun store => ?_) fun store => store.nameless_member found name
    cases found <;> rfl
  | array elements span =>
    refine (ih.evaluateAll scope elements h).bind fun values => ?_
    refine Run.Renames.bind (Run.renames_make fun _ hstore => ?_)
      fun id => Run.renames_done (Value.array id)
    exact ⟨⟨hstore.scopes, hstore.closures⟩, rfl⟩
  | index object index span =>
    obtain ⟨hobject, hindex⟩ := List.forall_mem_append.1 h
    refine (ih.evaluate scope object hobject).bind fun found =>
      (ih.evaluate scope index hindex).bind fun place => ?_
    refine Run.renames_ask span (fun store => ?_) fun store => store.nameless_index found place
    cases found <;> rfl

/-- Several expressions go through a renaming, if they do with less fuel. -/
theorem evaluateAll_renames (ih : Renames limit fuel ρ) (scope : ScopeId) (es : List Expr)
    (h : ∀ n ∈ exprsVariables es, ρ.covers n) :
    Run.Renames ρ (evaluateAll limit (fuel + 1) scope es)
      (evaluateAll limit (fuel + 1) scope (renamedExprs ρ es)) := by
  cases es with
  | nil => exact Run.renames_done []
  | cons e es =>
    obtain ⟨he, hes⟩ := List.forall_mem_append.1 h
    exact (ih.evaluate scope e he).bind fun value =>
      (ih.evaluateAll scope es hes).bind fun values => Run.renames_done (value :: values)

/-- Calls go through a renaming, if bodies do with less fuel. -/
theorem callValue_renames (ih : Renames limit fuel ρ) (callee : Value) (args : List Value)
    (span : Span) :
    Run.Renames ρ (callValue limit (fuel + 1) callee args span)
      (callValue limit (fuel + 1) callee args span) := by
  cases callee with
  | native f => exact Run.renames_within span (f.call_modest args) (f.nameless_call args)
  | function id =>
    intro m hm
    have hcall (m : Machine) : callValue limit (fuel + 1) (.function id) args span m =
        (enter limit id args span).andThen (fun found =>
          Run.deeper (executeAll limit fuel found.1 found.2 .null) >>= fun flow =>
            Run.done flow.callResult) m := rfl
    rw [hcall, hcall, Run.andThen, Run.andThen]
    rcases enter_renamed hm limit id args span with ⟨cause, hcause, he, he'⟩ | ⟨f, hf, he, he'⟩
    · rw [he, he']
      refine ⟨hm, ?_⟩
      show _ = (Outcome.failed ⟨cause.renamed ρ, some span⟩, _)
      rw [hcause.renamed]
    · -- The body that is run is the one in the store, which is renamed there.
      rw [he, he']
      have hbody : ρ.Covers (stmtsVariables f.body) (stmtsFunctions f.body) :=
        ⟨fun n hn => hf.names n (List.mem_append_right _ hn), hf.functions⟩
      have hparams : ∀ n ∈ f.params, ρ.covers n :=
        fun n hn => hf.names n (List.mem_append_left _ hn)
      have hrun := (ih.executeAll m.store.nextScope f.body .null hbody).deeper.bind fun flow =>
        Run.renames_done flow.callResult
      exact hrun (m.opened f.scope f.params args) (opened_renamed hm hparams f.scope args).1
  | _ => exact Run.renames_ask span (fun _ => rfl) fun _ => namelessAnswer_error (by rintro _ ⟨⟩)

/-- Statements one after the other go through a renaming, if they do with less fuel. -/
theorem executeAll_renames (ih : Renames limit fuel ρ) (scope : ScopeId) (body : List Stmt)
    (last : Value) (h : ρ.Covers (stmtsVariables body) (stmtsFunctions body)) :
    Run.Renames ρ (executeAll limit (fuel + 1) scope body last)
      (executeAll limit (fuel + 1) scope (renamedStmts ρ body) last) := by
  cases body with
  | nil => exact Run.renames_done (Flow.normal last)
  | cons s body =>
    obtain ⟨hs, hbody⟩ := Renaming.covers_append.1 h
    refine (ih.execute scope s hs).bind fun flow => ?_
    cases flow with
    | normal value => exact ih.executeAll scope body value hbody
    | returned value => exact Run.renames_done (Flow.returned value)

/-- Loops with a condition go through a renaming, if they do with less fuel. -/
theorem executeWhile_renames (ih : Renames limit fuel ρ) (scope : ScopeId) (condition : Expr)
    (body : Stmt) (last : Value) (hcondition : ∀ n ∈ condition.variables, ρ.covers n)
    (hbody : ρ.Covers body.variables body.functions) :
    Run.Renames ρ (executeWhile limit (fuel + 1) scope condition body last)
      (executeWhile limit (fuel + 1) scope (condition.renamed ρ) (body.renamed ρ) last) := by
  refine (ih.evaluate scope condition hcondition).bind fun value => ?_
  refine Run.renames_ite ?_ (Run.renames_done (Flow.normal last))
  refine (ih.execute scope body hbody).bind fun flow => ?_
  cases flow with
  | normal value => exact ih.executeWhile scope condition body value hcondition hbody
  | returned value => exact Run.renames_done (Flow.returned value)

/-- The rounds of a loop go through a renaming, if they do with less fuel. -/
theorem executeFor_renames (ih : Renames limit fuel ρ) (scope : ScopeId) (binder : String)
    (items : List Value) (body : Stmt) (last : Value) (hbinder : ρ.covers binder)
    (hbody : ρ.Covers body.variables body.functions) :
    Run.Renames ρ (executeFor limit (fuel + 1) scope binder items body last)
      (executeFor limit (fuel + 1) scope (ρ.name binder) items (body.renamed ρ) last) := by
  cases items with
  | nil => exact Run.renames_done (Flow.normal last)
  | cons item items =>
    refine (Run.renames_child scope).bind fun inner => ?_
    refine (Run.renames_define hbinder inner item).bind fun _ => ?_
    refine (ih.execute inner body hbody).bind fun flow => ?_
    cases flow with
    | normal value => exact ih.executeFor scope binder items body value hbinder hbody
    | returned value => exact Run.renames_done (Flow.returned value)

/-- Declaring a function goes through a renaming that leaves its name. -/
theorem function_renames (limit fuel : Nat) (scope : ScopeId) {name : String}
    {params : List String} {body : List Stmt} (span : Span)
    (h : ρ.Covers (params ++ stmtsVariables body) (name :: stmtsFunctions body)) :
    Run.Renames ρ (execute limit (fuel + 1) scope (.function name params body span))
      (execute limit (fuel + 1) scope (.function name (params.map ρ.name) (renamedStmts ρ body)
        span)) := by
  obtain ⟨⟨hcovers, hname⟩, hfunctions⟩ := List.forall_mem_cons.1 h.functions
  refine Run.Renames.bind (Run.renames_make fun store hstore => ?_) fun id => ?_
  · exact ⟨hstore.newClosure ⟨h.names, hfunctions⟩,
      store.newClosure_renamed ⟨name, params, body, scope⟩⟩
  · have hdefine := Run.renames_define hcovers scope (.function id)
    rw [hname] at hdefine
    exact hdefine.bind fun _ => Run.renames_done (Flow.normal (.function id))

/-- Statements go through a renaming, if they do with less fuel. -/
theorem execute_renames (ih : Renames limit fuel ρ) (scope : ScopeId) (s : Stmt)
    (h : ρ.Covers s.variables s.functions) :
    Run.Renames ρ (execute limit (fuel + 1) scope s)
      (execute limit (fuel + 1) scope (s.renamed ρ)) := by
  cases s with
  | expr e =>
    exact (ih.evaluate scope e h.names).bind fun value => Run.renames_done (Flow.normal value)
  | block body span =>
    exact (Run.renames_child scope).bind fun inner => ih.executeAll inner body .null h
  | cond condition yes no span =>
    cases no with
    | none =>
      obtain ⟨hcondition, hyes⟩ := List.forall_mem_append.1 h.names
      exact (ih.evaluate scope condition hcondition).bind fun value =>
        Run.renames_ite (ih.execute scope yes ⟨hyes, h.functions⟩)
          (Run.renames_done (Flow.normal .null))
    | some no =>
      obtain ⟨hcondition, hbranches⟩ := List.forall_mem_append.1 h.names
      obtain ⟨hyes, hno⟩ := Renaming.covers_append.1 ⟨hbranches, h.functions⟩
      exact (ih.evaluate scope condition hcondition).bind fun value =>
        Run.renames_ite (ih.execute scope yes hyes) (ih.execute scope no hno)
  | whileLoop condition body span =>
    obtain ⟨hcondition, hbody⟩ := List.forall_mem_append.1 h.names
    exact ih.executeWhile scope condition body .null hcondition ⟨hbody, h.functions⟩
  | forLoop binder items body span =>
    obtain ⟨hitems, hrest⟩ := List.forall_mem_append.1 h.names
    obtain ⟨hbinder, hbody⟩ := List.forall_mem_cons.1 hrest
    refine (ih.evaluate scope items hitems).bind fun value => ?_
    refine (Run.renames_ask span (fun store => ?_) (nameless_loopItems value)).bind fun found =>
      ih.executeFor scope binder found body .null hbinder ⟨hbody, h.functions⟩
    cases value <;> rfl
  | function name params body span => exact function_renames limit fuel scope span h
  | giveBack value span =>
    cases value with
    | none => exact Run.renames_done (Flow.returned .null)
    | some e =>
      exact (ih.evaluate scope e h.names).bind fun value =>
        Run.renames_done (Flow.returned value)
  | importing => exact Run.renames_done (Flow.normal .null)

/-- All runs go through a renaming. -/
theorem renames (limit fuel : Nat) (ρ : Renaming) : Renames limit fuel ρ := by
  -- Each part of the evaluator calls the others with one unit of fuel less.
  induction fuel with
  | zero => constructor <;> intros <;> exact Run.renames_outOfFuel
  | succ fuel ih =>
    exact {
      evaluate := evaluate_renames ih
      evaluateAll := evaluateAll_renames ih
      callValue := callValue_renames ih
      execute := execute_renames ih
      executeAll := executeAll_renames ih
      executeWhile := executeWhile_renames ih
      executeFor := executeFor_renames ih }

/-- The runs of a program go through a renaming that covers it. -/
theorem runProgram_renames (limit fuel : Nat) (last : Value) {program : Program}
    (h : ρ.Covers program.variables program.functions) :
    Run.Renames ρ (runProgram limit fuel last program)
      (runProgram limit fuel last (program.renamed ρ)) := by
  induction program generalizing last with
  | nil => exact Run.renames_done last
  | cons s rest ih =>
    obtain ⟨hs, hrest⟩ := Renaming.covers_append.1 h
    refine ((renames limit fuel ρ).execute Store.globalScope s hs).bind fun flow => ?_
    cases flow with
    | normal value => exact ih value hrest
    | returned value =>
      have hcause : Cause.returnOutsideFunction.Nameless := by rintro _ ⟨⟩
      rw [s.span_renamed ρ]
      exact Run.renames_failed hcause s.span

end Eval

end QuantumScript
