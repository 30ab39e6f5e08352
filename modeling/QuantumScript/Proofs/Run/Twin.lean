import QuantumScript.Proofs.Program.Bare
import QuantumScript.Proofs.Run.Bodies

/-!
# Runs do not look at places

A run on a machine has a twin: the program without its places, run on the machine without the
places in its closures and with other lines behind those that the run takes as input. Whatever the
run does, its twin does the same, places aside (`Eval.twins`, `Eval.runProgram_twins`). So neither
the places of a program nor the lines of input that are left have any part in what it does.
-/

namespace QuantumScript

/-- A closure without its places. -/
def Closure.bare (f : Closure) : Closure :=
  { f with body := bareStmts f.body }

/-- A store without the places in its closures. -/
def Store.bare (store : Store) : Store :=
  { store with closures := store.closures.map Closure.bare }

/-- Lines with other ones, `new`, in place of the `old` ones at their end. -/
def replaceEnd (old new lines : List String) : List String :=
  lines.take (lines.length - old.length) ++ new

/-- A machine without its places, and with other lines of input in place of those at the end. -/
def Machine.twin (old new : List String) (m : Machine) : Machine :=
  { m with
    store := m.store.bare
    console := { m.console with pending := replaceEnd old new m.console.pending } }

/-- A fault without its place. -/
def Fault.bare (fault : Fault) : Fault :=
  { fault with span := fault.span.map fun _ => .anywhere }

/-- A place can be left out once. -/
theorem Fault.bare_bare (fault : Fault) : fault.bare.bare = fault.bare := by
  obtain ⟨cause, span⟩ := fault
  cases span <;> rfl

/-- An outcome without the place of its fault. -/
def Outcome.bare {α : Type} : Outcome α → Outcome α
  | .done value => .done value
  | .failed fault => .failed fault.bare
  | .crashed => .crashed
  | .outOfFuel => .outOfFuel

/-- Other lines come behind those that stand before the end. -/
theorem replaceEnd_append (old new taken : List String) :
    replaceEnd old new (taken ++ old) = taken ++ new := by
  simp [replaceEnd]

/-- A bare store is one whose closures have bare bodies. -/
theorem Store.bare_eq_mapBodies (store : Store) : store.bare = store.mapBodies bareStmts :=
  rfl

/-! ## Runs and their twins -/

namespace Run

variable {α β : Type} {old new : List String}

/-- A run leaves the end of its input, and if `old` is left of it, then another run with `new` in
its place does the same, places aside. -/
def Twins (old new : List String) (run other : Run α) : Prop :=
  ∀ m, (run m).2.console.pending <:+ m.console.pending ∧
    (old <:+ (run m).2.console.pending →
      other (m.twin old new) = ((run m).1.bare, (run m).2.twin old new))

/-- Yielding a value has no part in places and input. -/
theorem twins_done (value : α) : Twins old new (Run.done value) (Run.done value) :=
  fun _ => ⟨List.suffix_refl _, fun _ => rfl⟩

/-- Failing has no part in places and input, but for the place of the fault. -/
theorem twins_failed (cause : Cause) (span : Span) :
    Twins old new (Run.failed cause span : Run α) (Run.failed cause .anywhere) :=
  fun _ => ⟨List.suffix_refl _, fun _ => rfl⟩

/-- Having no fuel has no part in places and input. -/
theorem twins_outOfFuel : Twins old new (Run.outOfFuel : Run α) Run.outOfFuel :=
  fun _ => ⟨List.suffix_refl _, fun _ => rfl⟩

/-- A question that has no part in places has a twin. -/
theorem twins_ask {question : Store → Except Cause α} (span : Span)
    (h : ∀ store : Store, question store.bare = question store) :
    Twins old new (Run.ask span question) (Run.ask .anywhere question) := by
  intro m
  have hq : question (m.twin old new).store = question m.store := h m.store
  unfold ask
  rw [hq]
  cases question m.store with
  | ok value => exact ⟨List.suffix_refl _, fun _ => rfl⟩
  | error cause => exact ⟨List.suffix_refl _, fun _ => rfl⟩

/-- A change that has no part in places has a twin. -/
theorem twins_change {f : Store → Store} (h : ∀ store : Store, f store.bare = (f store).bare) :
    Twins old new (Run.change f) (Run.change f) := by
  intro m
  refine ⟨List.suffix_refl _, fun _ => ?_⟩
  have hf : f (m.twin old new).store = (f m.store).bare := h m.store
  unfold change Machine.mapStore
  rw [hf]
  rfl

/-- Adding something and adding it without its places are twins. -/
theorem twins_make {f g : Store → α × Store}
    (h : ∀ store : Store, g store.bare = ((f store).1, (f store).2.bare)) :
    Twins old new (Run.make f) (Run.make g) := by
  intro m
  refine ⟨List.suffix_refl _, fun _ => ?_⟩
  have hg : g (m.twin old new).store = ((f m.store).1, (f m.store).2.bare) := h m.store
  unfold make
  rw [hg]
  rfl

/-- A line of input that is taken before the end is taken from other lines too. -/
theorem input_twin (hend : old = [] → new = []) (question : Option Value) (m : Machine)
    (hleft : old <:+ (Native.input question m).2.console.pending) :
    Native.input question (m.twin old new) =
      ((Native.input question m).1, (Native.input question m).2.twin old new) := by
  have hd : (m.twin old new).store.display = m.store.display :=
    m.store.display_mapBodies
  unfold Native.input Console.readLine at hleft ⊢
  rw [hd]
  cases hp : m.console.pending with
  | nil =>
    -- Without a line the run sees the end of the input, which must be the end of both.
    rw [hp] at hleft
    have hold : old = [] := List.suffix_nil.1 hleft
    subst hold
    simp [Machine.twin, replaceEnd, hp, hend rfl]
  | cons line rest =>
    rw [hp] at hleft
    obtain ⟨taken, rfl⟩ : old <:+ rest := hleft
    have hrest : replaceEnd old new (line :: (taken ++ old)) = line :: (taken ++ new) :=
      replaceEnd_append old new (line :: taken)
    simp [Machine.twin, hp, hrest, replaceEnd_append]

/-- A call of the library has no part in places, nor in the input that it leaves. -/
theorem call_twin (hend : old = [] → new = []) {call : Machine → Native.Result}
    (h : Native.Modest call) (m : Machine) (hleft : old <:+ (call m).2.console.pending) :
    call (m.twin old new) = ((call m).1, (call m).2.twin old new) := by
  rcases h with h | ⟨question, rfl⟩
  · -- An oblivious call leaves what the twin changes, so the change may as well come after it.
    have hcall : call (m.amid (m.twin old new)) = _ :=
      h m (m.twin old new) m.store.sameNames_mapBodies
    have hafter : (call m).2.amid (m.twin old new) = (call m).2.twin old new :=
      (congrArg (Machine.twin old new) (h.leaves m)).symm
    rw [← hafter]
    exact hcall
  · exact input_twin hend question m hleft

/-- A call of the library has a twin. -/
theorem twins_within (hend : old = [] → new = []) {call : Machine → Native.Result} (span : Span)
    (h : Native.Modest call) :
    Twins old new (Run.within span call) (Run.within .anywhere call) := by
  intro m
  obtain ⟨-, -, -, hpending⟩ := h.leaves m
  have hcall := call_twin hend h m
  unfold within
  generalize call m = found at hpending hcall
  obtain ⟨answer, after⟩ := found
  cases answer with
  | ok value =>
    refine ⟨hpending, fun hleft => ?_⟩
    rw [hcall hleft]
    rfl
  | error cause =>
    refine ⟨hpending, fun hleft => ?_⟩
    rw [hcall hleft]
    rfl
  | crash =>
    refine ⟨hpending, fun hleft => ?_⟩
    rw [hcall hleft]
    rfl

/-- A choice that both make in the same way has a twin if what is chosen has. -/
theorem twins_ite {test : Prop} [Decidable test] {yes yes' no no' : Run α}
    (hy : Twins old new yes yes') (hn : Twins old new no no') :
    Twins old new (if test then yes else no) (if test then yes' else no') := by
  by_cases ht : test
  · rw [if_pos ht, if_pos ht]
    exact hy
  · rw [if_neg ht, if_neg ht]
    exact hn

/-- Runs one after the other have a twin if each of them has. -/
theorem Twins.bind {first first' : Run α} {next next' : α → Run β}
    (hf : Twins old new first first') (hn : ∀ value, Twins old new (next value) (next' value)) :
    Twins old new (first >>= next) (first' >>= next') := by
  intro m
  obtain ⟨hpending, htwin⟩ := hf m
  cases hs : first m with
  | mk outcome mid =>
    rw [hs] at hpending htwin
    cases outcome with
    | done value =>
      -- What the second run leaves of the input, the first has left too.
      obtain ⟨hpending', htwin'⟩ := hn value mid
      rw [bind_of_done hs]
      refine ⟨hpending'.trans hpending, fun hleft => ?_⟩
      rw [bind_of_done (htwin (hleft.trans hpending'))]
      exact htwin' hleft
    | failed fault =>
      rw [bind_of_failed hs]
      exact ⟨hpending, fun hleft => bind_of_failed (htwin hleft)⟩
    | crashed =>
      rw [bind_of_crashed hs]
      exact ⟨hpending, fun hleft => bind_of_crashed (htwin hleft)⟩
    | outOfFuel =>
      rw [bind_of_outOfFuel hs]
      exact ⟨hpending, fun hleft => bind_of_outOfFuel (htwin hleft)⟩

/-- A run that counts as one more function body has a twin if it has one otherwise. -/
theorem Twins.deeper {run other : Run α} (h : Twins old new run other) :
    Twins old new (Run.deeper run) (Run.deeper other) := by
  intro m
  obtain ⟨hpending, htwin⟩ := h { m with depth := m.depth + 1 }
  refine ⟨hpending, fun hleft => ?_⟩
  have hrun : other { m.twin old new with depth := m.depth + 1 } = _ := htwin hleft
  show (fun result : Outcome α × Machine =>
    (result.1, { result.2 with depth := result.2.depth - 1 }))
      (other { m.twin old new with depth := m.depth + 1 }) = _
  rw [hrun]
  rfl

end Run

namespace Eval

variable {limit fuel : Nat} {old new : List String}

/-- What the parts of the evaluator do with some fuel, their twins do too. -/
structure Twins (limit fuel : Nat) (old new : List String) : Prop where
  /-- Expressions have twins. -/
  evaluate : ∀ scope e, Run.Twins old new (Eval.evaluate limit fuel scope e)
    (Eval.evaluate limit fuel scope e.bare)
  /-- Several expressions have twins. -/
  evaluateAll : ∀ scope es, Run.Twins old new (Eval.evaluateAll limit fuel scope es)
    (Eval.evaluateAll limit fuel scope (bareExprs es))
  /-- Calls have twins. -/
  callValue : ∀ callee args span, Run.Twins old new (Eval.callValue limit fuel callee args span)
    (Eval.callValue limit fuel callee args .anywhere)
  /-- Statements have twins. -/
  execute : ∀ scope s, Run.Twins old new (Eval.execute limit fuel scope s)
    (Eval.execute limit fuel scope s.bare)
  /-- Several statements have twins. -/
  executeAll : ∀ scope body last, Run.Twins old new (Eval.executeAll limit fuel scope body last)
    (Eval.executeAll limit fuel scope (bareStmts body) last)
  /-- Loops with a condition have twins. -/
  executeWhile : ∀ scope condition body last,
    Run.Twins old new (Eval.executeWhile limit fuel scope condition body last)
      (Eval.executeWhile limit fuel scope condition.bare body.bare last)
  /-- The rounds of a loop through items have twins. -/
  executeFor : ∀ scope binder items body last,
    Run.Twins old new (Eval.executeFor limit fuel scope binder items body last)
      (Eval.executeFor limit fuel scope binder items body.bare last)

/-- Expressions have twins, if they have some with less fuel. -/
theorem evaluate_twins (hend : old = [] → new = []) (ih : Twins limit fuel old new)
    (scope : ScopeId) (e : Expr) :
    Run.Twins old new (evaluate limit (fuel + 1) scope e)
      (evaluate limit (fuel + 1) scope e.bare) := by
  cases e with
  | number | text | bool | null => exact Run.twins_done _
  | name => exact Run.twins_ask _ fun _ => rfl
  | binary op left right span =>
    exact (ih.evaluate scope left).bind fun a => (ih.evaluate scope right).bind fun b =>
      Run.twins_ask span fun store => store.binary_mapBodies op a b
  | logical op left right span =>
    exact (ih.evaluate scope left).bind fun value =>
      Run.twins_ite (Run.twins_done value) (ih.evaluate scope right)
  | unary op operand span =>
    exact (ih.evaluate scope operand).bind fun value =>
      Run.twins_ask span fun store => store.unary_mapBodies op value
  | assign name value span =>
    refine (ih.evaluate scope value).bind fun found => ?_
    rw [Run.attempt_assign]
    exact Run.Twins.bind (Run.twins_change fun _ => rfl) fun _ => Run.twins_done found
  | call callee args span =>
    exact (ih.evaluate scope callee).bind fun f => (ih.evaluateAll scope args).bind fun values =>
      ih.callValue f values span
  | methodCall object method args span =>
    exact (ih.evaluate scope object).bind fun found =>
      (ih.evaluateAll scope args).bind fun values =>
        Run.twins_within hend span (.inl (Method.call_oblivious found method values))
  | member object name span =>
    exact (ih.evaluate scope object).bind fun found =>
      Run.twins_ask span fun store => store.member_mapBodies found name
  | array elements span =>
    refine (ih.evaluateAll scope elements).bind fun values => ?_
    exact Run.Twins.bind (Run.twins_make fun _ => rfl) fun id => Run.twins_done (Value.array id)
  | index object index span =>
    exact (ih.evaluate scope object).bind fun found => (ih.evaluate scope index).bind fun place =>
      Run.twins_ask span fun store => store.index_mapBodies found place

/-- Several expressions have twins, if they have some with less fuel. -/
theorem evaluateAll_twins (ih : Twins limit fuel old new) (scope : ScopeId) (es : List Expr) :
    Run.Twins old new (evaluateAll limit (fuel + 1) scope es)
      (evaluateAll limit (fuel + 1) scope (bareExprs es)) := by
  cases es with
  | nil => exact Run.twins_done []
  | cons e es =>
    exact (ih.evaluate scope e).bind fun value => (ih.evaluateAll scope es).bind fun values =>
      Run.twins_done (value :: values)

/-- Calls have twins, if bodies have some with less fuel. -/
theorem callValue_twins (hend : old = [] → new = []) (ih : Twins limit fuel old new)
    (callee : Value) (args : List Value) (span : Span) :
    Run.Twins old new (callValue limit (fuel + 1) callee args span)
      (callValue limit (fuel + 1) callee args .anywhere) := by
  cases callee with
  | native f => exact Run.twins_within hend span (f.call_modest args)
  | function id =>
    intro m
    have hcall (span : Span) (m : Machine) : callValue limit (fuel + 1) (.function id) args span m =
        (enter limit id args span).andThen (fun found =>
          Run.deeper (executeAll limit fuel found.1 found.2 .null) >>= fun flow =>
            Run.done flow.callResult) m := rfl
    rw [hcall, hcall, Run.andThen, Run.andThen]
    rcases enter_mapBodies m (m.twin old new) m.store.bare_eq_mapBodies rfl limit id args span
      .anywhere with ⟨cause, he, he'⟩ | ⟨f, he, he'⟩
    · rw [he, he']
      exact ⟨List.suffix_refl _, fun _ => rfl⟩
    · -- The body that is run is the one in the store, so its twin is the one without places.
      rw [he, he']
      have hbody := (ih.executeAll m.store.nextScope f.body .null).deeper.bind fun flow =>
        Run.twins_done flow.callResult
      exact hbody (m.opened f.scope f.params args)
  | _ => exact Run.twins_ask span fun _ => rfl

/-- Statements one after the other have twins, if they have some with less fuel. -/
theorem executeAll_twins (ih : Twins limit fuel old new) (scope : ScopeId) (body : List Stmt)
    (last : Value) :
    Run.Twins old new (executeAll limit (fuel + 1) scope body last)
      (executeAll limit (fuel + 1) scope (bareStmts body) last) := by
  cases body with
  | nil => exact Run.twins_done (Flow.normal last)
  | cons s body =>
    refine (ih.execute scope s).bind fun flow => ?_
    cases flow with
    | normal value => exact ih.executeAll scope body value
    | returned value => exact Run.twins_done (Flow.returned value)

/-- Loops with a condition have twins, if they have some with less fuel. -/
theorem executeWhile_twins (ih : Twins limit fuel old new) (scope : ScopeId) (condition : Expr)
    (body : Stmt) (last : Value) :
    Run.Twins old new (executeWhile limit (fuel + 1) scope condition body last)
      (executeWhile limit (fuel + 1) scope condition.bare body.bare last) := by
  refine (ih.evaluate scope condition).bind fun value => ?_
  refine Run.twins_ite ?_ (Run.twins_done (Flow.normal last))
  refine (ih.execute scope body).bind fun flow => ?_
  cases flow with
  | normal value => exact ih.executeWhile scope condition body value
  | returned value => exact Run.twins_done (Flow.returned value)

/-- The rounds of a loop have twins, if they have some with less fuel. -/
theorem executeFor_twins (ih : Twins limit fuel old new) (scope : ScopeId) (binder : String)
    (items : List Value) (body : Stmt) (last : Value) :
    Run.Twins old new (executeFor limit (fuel + 1) scope binder items body last)
      (executeFor limit (fuel + 1) scope binder items body.bare last) := by
  cases items with
  | nil => exact Run.twins_done (Flow.normal last)
  | cons item items =>
    refine Run.Twins.bind (Run.twins_make fun _ => rfl) fun inner => ?_
    refine Run.Twins.bind (Run.twins_change fun _ => rfl) fun _ => ?_
    refine (ih.execute inner body).bind fun flow => ?_
    cases flow with
    | normal value => exact ih.executeFor scope binder items body value
    | returned value => exact Run.twins_done (Flow.returned value)

/-- Statements have twins, if they have some with less fuel. -/
theorem execute_twins (ih : Twins limit fuel old new) (scope : ScopeId) (s : Stmt) :
    Run.Twins old new (execute limit (fuel + 1) scope s)
      (execute limit (fuel + 1) scope s.bare) := by
  cases s with
  | expr e => exact (ih.evaluate scope e).bind fun value => Run.twins_done (Flow.normal value)
  | block body span =>
    exact Run.Twins.bind (Run.twins_make fun _ => rfl) fun inner => ih.executeAll inner body .null
  | cond condition yes no span =>
    cases no with
    | none =>
      exact (ih.evaluate scope condition).bind fun value =>
        Run.twins_ite (ih.execute scope yes) (Run.twins_done (Flow.normal .null))
    | some no =>
      exact (ih.evaluate scope condition).bind fun value =>
        Run.twins_ite (ih.execute scope yes) (ih.execute scope no)
  | whileLoop condition body span => exact ih.executeWhile scope condition body .null
  | forLoop binder items body span =>
    refine (ih.evaluate scope items).bind fun value => ?_
    exact (Run.twins_ask span (loopItems_mapBodies value)).bind fun found =>
      ih.executeFor scope binder found body .null
  | function name params body span =>
    refine Run.Twins.bind (Run.twins_make fun store => ?_) fun id => ?_
    · exact store.newClosure_mapBodies ⟨name, params, body, scope⟩
    · exact Run.Twins.bind (Run.twins_change fun _ => rfl) fun _ =>
        Run.twins_done (Flow.normal (.function id))
  | giveBack value span =>
    cases value with
    | none => exact Run.twins_done (Flow.returned .null)
    | some e => exact (ih.evaluate scope e).bind fun value => Run.twins_done (Flow.returned value)
  | importing => exact Run.twins_done (Flow.normal .null)

/-- All runs have twins. At the end of the input there must be an end of the other input too, for a
run may see that there is no line left. -/
theorem twins (hend : old = [] → new = []) (limit fuel : Nat) : Twins limit fuel old new := by
  -- Each part of the evaluator calls the others with one unit of fuel less.
  induction fuel with
  | zero =>
    constructor <;> intros <;> exact Run.twins_outOfFuel
  | succ fuel ih =>
    exact {
      evaluate := evaluate_twins hend ih
      evaluateAll := evaluateAll_twins ih
      callValue := callValue_twins hend ih
      execute := execute_twins ih
      executeAll := executeAll_twins ih
      executeWhile := executeWhile_twins ih
      executeFor := executeFor_twins ih }

/-- The runs of a program have twins. -/
theorem runProgram_twins (hend : old = [] → new = []) (limit fuel : Nat) (last : Value)
    (program : Program) :
    Run.Twins old new (runProgram limit fuel last program)
      (runProgram limit fuel last program.bare) := by
  induction program generalizing last with
  | nil => exact Run.twins_done last
  | cons s rest ih =>
    refine ((twins hend limit fuel).execute Store.globalScope s).bind fun flow => ?_
    cases flow with
    | normal value => exact ih value
    | returned value =>
      rw [s.span_bare]
      exact Run.twins_failed .returnOutsideFunction s.span

end Eval

end QuantumScript
