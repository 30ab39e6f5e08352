import QuantumScript.Proofs.Program.Bare
import QuantumScript.Proofs.Run.Bodies
import QuantumScript.Proofs.Run.Returns
import QuantumScript.Session

/-!
# What comes after a return

Statements after a `return` in the same list are not reached: with or without them, a block is the
same run (`Eval.executeAll_giveBack`). For the body of a function this is not an equality of runs,
since the closure that is made of it holds the whole body. So a program is compared with the one
that has nothing after any of its returns, functions included, and a machine with the one that has
such bodies in its closures: the runs yield the same and show the same, and leave machines that
compare in the same way (`Eval.trims`, by an induction on the fuel as in `Eval.twins`).
-/

namespace QuantumScript

open Eval

/-- Whether a statement is a `return`. -/
def Stmt.isGiveBack : Stmt → Bool
  | .giveBack _ _ => true
  | _ => false

mutual

/-- A statement with nothing after any `return` in it. -/
def Stmt.trimmed : Stmt → Stmt
  | .expr e => .expr e
  | .block body span => .block (Program.trimmed body) span
  | .cond condition yes none span => .cond condition yes.trimmed none span
  | .cond condition yes (some no) span => .cond condition yes.trimmed (some no.trimmed) span
  | .whileLoop condition body span => .whileLoop condition body.trimmed span
  | .forLoop binder items body span => .forLoop binder items body.trimmed span
  | .function name params body span => .function name params (Program.trimmed body) span
  | .giveBack value span => .giveBack value span
  | .importing library nickname span => .importing library nickname span

/-- A program with nothing after any `return` in it. -/
def Program.trimmed : Program → Program
  | [] => []
  | s :: ss => s.trimmed :: if s.isGiveBack then [] else Program.trimmed ss

end

/-- What stands after a `return` is left out. -/
theorem Program.trimmed_giveBack (pre post : List Stmt) (value : Option Expr) (span : Span) :
    Program.trimmed (pre ++ .giveBack value span :: post) =
      Program.trimmed (pre ++ [.giveBack value span]) := by
  induction pre with
  | nil => rfl
  | cons s pre ih => simp only [List.cons_append, Program.trimmed, ih]

/-- A statement keeps its region. -/
theorem Stmt.span_trimmed (s : Stmt) : s.trimmed.span = s.span := by
  cases s with
  | cond condition yes no span => cases no <;> rfl
  | _ => rfl

/-- A closure with nothing after any `return` in its body. -/
def Closure.trimmed (f : Closure) : Closure :=
  f.mapBody Program.trimmed

/-- A machine with nothing after any `return` in its closures. -/
def Machine.trimmed (m : Machine) : Machine :=
  m.mapStore (Store.mapBodies Program.trimmed)

/-- Two machines differ in nothing but what stands after a `return` in their closures. -/
structure Machine.SameReached (m other : Machine) : Prop where
  /-- They have shown the same and have the same lines of input left. -/
  console : m.console = other.console
  /-- They draw the same. -/
  dice : m.dice = other.dice
  /-- They run as many function bodies. -/
  depth : m.depth = other.depth
  /-- They have the same scopes with the same bindings. -/
  scopes : m.store.scopes = other.store.scopes
  /-- They have the same arrays. -/
  arrays : m.store.arrays = other.store.arrays
  /-- They have the same objects. -/
  objects : m.store.objects = other.store.objects
  /-- They have the same closures, but for what stands after a `return`. -/
  closures : m.store.closures.map Closure.trimmed = other.store.closures.map Closure.trimmed

/-- Machines differ in nothing but what is left out exactly if the rest is the same. -/
theorem Machine.sameReached_iff {m other : Machine} :
    m.SameReached other ↔ m.trimmed = other.trimmed := by
  obtain ⟨⟨scopes, closures, arrays, objects⟩, console, dice, depth⟩ := m
  obtain ⟨⟨scopes', closures', arrays', objects'⟩, console', dice', depth'⟩ := other
  simp only [trimmed, mapStore, Store.mapBodies, Machine.mk.injEq, Store.mk.injEq]
  constructor
  · intro h
    exact ⟨⟨h.scopes, h.closures, h.arrays, h.objects⟩, h.console, h.dice, h.depth⟩
  · rintro ⟨⟨hscopes, hclosures, harrays, hobjects⟩, hconsole, hdice, hdepth⟩
    exact ⟨hconsole, hdice, hdepth, hscopes, harrays, hobjects, hclosures⟩

/-! ## Runs on trimmed machines -/

namespace Run

variable {α β : Type}

/-- On the trimmed machine another run yields what a run yields, and leaves what it leaves,
trimmed. -/
def Trims (run other : Run α) : Prop :=
  ∀ m, other m.trimmed = ((run m).1, (run m).2.trimmed)

/-- Yielding a value has no part in bodies. -/
theorem trims_done (value : α) : Trims (Run.done value) (Run.done value) :=
  fun _ => rfl

/-- Failing has no part in bodies. -/
theorem trims_failed (cause : Cause) (span : Span) :
    Trims (Run.failed cause span : Run α) (Run.failed cause span) :=
  fun _ => rfl

/-- Having no fuel has no part in bodies. -/
theorem trims_outOfFuel : Trims (Run.outOfFuel : Run α) Run.outOfFuel :=
  fun _ => rfl

/-- A question has no part in bodies, if it has the same answer for the trimmed store. -/
theorem trims_ask {question : Store → Except Cause α} (span : Span)
    (h : ∀ store : Store, question (store.mapBodies Program.trimmed) = question store) :
    Trims (Run.ask span question) (Run.ask span question) := by
  intro m
  have hq : question m.trimmed.store = question m.store := h m.store
  unfold ask
  rw [hq]
  cases question m.store <;> rfl

/-- A change that leaves the closures alone has no part in bodies. -/
theorem trims_change {f : Store → Store} (h : ∀ store : Store,
      f (store.mapBodies Program.trimmed) = (f store).mapBodies Program.trimmed) :
    Trims (Run.change f) (Run.change f) := by
  intro m
  have hf : f m.trimmed.store = (f m.store).mapBodies Program.trimmed := h m.store
  unfold change Machine.mapStore
  rw [hf]
  rfl

/-- Adding something has its counterpart in adding it trimmed. -/
theorem trims_make {f g : Store → α × Store}
    (h : ∀ store : Store, g (store.mapBodies Program.trimmed) =
      ((f store).1, (f store).2.mapBodies Program.trimmed)) :
    Trims (Run.make f) (Run.make g) := by
  intro m
  have hg : g m.trimmed.store =
      ((f m.store).1, (f m.store).2.mapBodies Program.trimmed) := h m.store
  unfold make
  rw [hg]
  rfl

/-- A call of the library has no part in bodies. -/
theorem call_trimmed {call : Machine → Native.Result} (h : Native.Modest call) (m : Machine) :
    call m.trimmed = ((call m).1, (call m).2.trimmed) := by
  rcases h with h | ⟨question, rfl⟩
  · -- An oblivious call leaves what is trimmed, so it may as well be trimmed after it.
    have hcall : call (m.amid m.trimmed) = _ := h m m.trimmed m.store.sameNames_mapBodies
    have hafter : (call m).2.amid m.trimmed = (call m).2.trimmed :=
      (congrArg Machine.trimmed (h.leaves m)).symm
    rw [← hafter]
    exact hcall
  · have hd : m.trimmed.store.display = m.store.display :=
      m.store.display_mapBodies
    unfold Native.input
    rw [hd]
    rfl

/-- The run of a call of the library has no part in bodies. -/
theorem trims_within (span : Span) {call : Machine → Native.Result} (h : Native.Modest call) :
    Trims (Run.within span call) (Run.within span call) := by
  intro m
  unfold within
  rw [call_trimmed h]
  generalize call m = found
  obtain ⟨answer, after⟩ := found
  cases answer <;> rfl

/-- A choice that both make in the same way trims if what is chosen does. -/
theorem trims_ite {test : Prop} [Decidable test] {yes yes' no no' : Run α} (hy : Trims yes yes')
    (hn : Trims no no') :
    Trims (if test then yes else no) (if test then yes' else no') := by
  by_cases ht : test
  · rw [if_pos ht, if_pos ht]
    exact hy
  · rw [if_neg ht, if_neg ht]
    exact hn

/-- Runs one after the other trim if each of them does. What follows a run may be asked to do so
only after the values that the run yields. -/
theorem Trims.bind_of_done {first first' : Run α} {next next' : α → Run β} (hf : Trims first first')
    (hn : ∀ m value mid, first m = (.done value, mid) → Trims (next value) (next' value)) :
    Trims (first >>= next) (first' >>= next') := by
  intro m
  have hfirst := hf m
  cases hs : first m with
  | mk outcome mid =>
    rw [hs] at hfirst
    cases outcome with
    | done value =>
      rw [Run.bind_of_done hs, Run.bind_of_done hfirst]
      exact hn m value mid hs mid
    | failed fault => rw [bind_of_failed hs, bind_of_failed hfirst]
    | crashed => rw [bind_of_crashed hs, bind_of_crashed hfirst]
    | outOfFuel => rw [bind_of_outOfFuel hs, bind_of_outOfFuel hfirst]

/-- Runs one after the other trim if each of them does. -/
theorem Trims.bind {first first' : Run α} {next next' : α → Run β} (hf : Trims first first')
    (hn : ∀ value, Trims (next value) (next' value)) : Trims (first >>= next) (first' >>= next') :=
  hf.bind_of_done fun _ value _ _ => hn value

/-- A run that counts as one more function body trims if it does otherwise. -/
theorem Trims.deeper {run other : Run α} (h : Trims run other) :
    Trims (Run.deeper run) (Run.deeper other) := by
  intro m
  have hrun : other { m.trimmed with depth := m.depth + 1 } = _ := h { m with depth := m.depth + 1 }
  show (fun result : Outcome α × Machine =>
    (result.1, { result.2 with depth := result.2.depth - 1 }))
      (other { m.trimmed with depth := m.depth + 1 }) = _
  rw [hrun]
  rfl

end Run

namespace Eval

variable {limit fuel : Nat}

/-- A `return` that yields a flow returns. -/
theorem execute_giveBack {scope : ScopeId} {value : Option Expr} {span : Span} {m after : Machine}
    {flow : Flow} (h : execute limit fuel scope (.giveBack value span) m = (.done flow, after)) :
    ∃ given, flow = .returned given := by
  cases fuel with
  | zero => cases h
  | succ fuel =>
    cases value with
    | none =>
      cases h
      exact ⟨.null, rfl⟩
    | some e =>
      change (evaluate limit fuel scope e >>= fun value => Run.done (Flow.returned value)) m = _ at h
      cases he : evaluate limit fuel scope e m with
      | mk outcome mid =>
        cases outcome with
        | done given =>
          rw [Run.bind_of_done he] at h
          cases h
          exact ⟨given, rfl⟩
        | failed fault =>
          rw [Run.bind_of_failed he] at h
          cases h
        | crashed =>
          rw [Run.bind_of_crashed he] at h
          cases h
        | outOfFuel =>
          rw [Run.bind_of_outOfFuel he] at h
          cases h

/-- A statement that yields a value is no `return`. -/
theorem isGiveBack_eq_false {scope : ScopeId} {s : Stmt} {m after : Machine} {value : Value}
    (h : execute limit fuel scope s m = (.done (.normal value), after)) : s.isGiveBack = false := by
  cases s with
  | giveBack given span =>
    obtain ⟨_, hflow⟩ := execute_giveBack h
    cases hflow
  | _ => rfl

/-- With or without what stands after a `return`, statements are the same run. -/
theorem executeAll_giveBack (limit fuel : Nat) (scope : ScopeId) (pre post : List Stmt)
    (value : Option Expr) (span : Span) (last : Value) :
    executeAll limit fuel scope (pre ++ .giveBack value span :: post) last =
      executeAll limit fuel scope (pre ++ [.giveBack value span]) last := by
  induction fuel generalizing pre last with
  | zero => rfl
  | succ fuel ih =>
    funext m
    -- Whichever statement comes first, what comes after its flow is the same run.
    cases pre with
    | nil =>
      show (execute limit fuel scope (.giveBack value span)).andThen _ m =
        (execute limit fuel scope (.giveBack value span)).andThen _ m
      unfold Run.andThen
      cases hs : execute limit fuel scope (.giveBack value span) m with
      | mk outcome mid =>
        cases outcome with
        | done flow =>
          obtain ⟨given, rfl⟩ := execute_giveBack hs
          rfl
        | failed fault => rfl
        | crashed => rfl
        | outOfFuel => rfl
    | cons s pre =>
      refine congrFun (congrArg (Run.andThen (execute limit fuel scope s))
        (funext fun flow => ?_)) m
      cases flow with
      | normal value => exact ih pre value
      | returned value => rfl

/-- With some fuel, the parts of the evaluator do on trimmed machines what they do otherwise, and so
do they with what stands after returns left out. -/
structure Trims (limit fuel : Nat) : Prop where
  /-- Expressions do the same on trimmed machines. -/
  evaluate : ∀ scope e, Run.Trims (Eval.evaluate limit fuel scope e)
    (Eval.evaluate limit fuel scope e)
  /-- Several expressions do the same on trimmed machines. -/
  evaluateAll : ∀ scope es, Run.Trims (Eval.evaluateAll limit fuel scope es)
    (Eval.evaluateAll limit fuel scope es)
  /-- Calls do the same on trimmed machines. -/
  callValue : ∀ callee args span, Run.Trims (Eval.callValue limit fuel callee args span)
    (Eval.callValue limit fuel callee args span)
  /-- Statements do the same on trimmed machines when they are trimmed themselves. -/
  execute : ∀ scope s, Run.Trims (Eval.execute limit fuel scope s)
    (Eval.execute limit fuel scope s.trimmed)
  /-- Several statements do the same on trimmed machines when they are trimmed themselves. -/
  executeAll : ∀ scope body last, Run.Trims (Eval.executeAll limit fuel scope body last)
    (Eval.executeAll limit fuel scope (Program.trimmed body) last)
  /-- Loops with a condition do the same on trimmed machines, with a trimmed body. -/
  executeWhile : ∀ scope condition body last,
    Run.Trims (Eval.executeWhile limit fuel scope condition body last)
      (Eval.executeWhile limit fuel scope condition body.trimmed last)
  /-- The rounds of a loop through items do the same on trimmed machines, with a trimmed body. -/
  executeFor : ∀ scope binder items body last,
    Run.Trims (Eval.executeFor limit fuel scope binder items body last)
      (Eval.executeFor limit fuel scope binder items body.trimmed last)

/-- Expressions do the same on trimmed machines, if they do with less fuel. -/
theorem evaluate_trims (ih : Trims limit fuel) (scope : ScopeId) (e : Expr) :
    Run.Trims (evaluate limit (fuel + 1) scope e) (evaluate limit (fuel + 1) scope e) := by
  cases e with
  | number | text | bool | null => exact Run.trims_done _
  | name name span =>
    have hask : Run.Trims (Run.ask span fun store => store.get scope name) _ :=
      Run.trims_ask span fun _ => rfl
    exact hask
  | binary op left right span =>
    exact (ih.evaluate scope left).bind fun a => (ih.evaluate scope right).bind fun b =>
      Run.trims_ask span fun store => store.binary_mapBodies op a b
  | logical op left right span =>
    exact (ih.evaluate scope left).bind fun value =>
      Run.trims_ite (Run.trims_done value) (ih.evaluate scope right)
  | unary op operand span =>
    exact (ih.evaluate scope operand).bind fun value =>
      Run.trims_ask span fun store => store.unary_mapBodies op value
  | assign name value span =>
    refine (ih.evaluate scope value).bind fun found => ?_
    rw [Run.attempt_assign]
    exact Run.Trims.bind (Run.trims_change fun _ => rfl) fun _ => Run.trims_done found
  | call callee args span =>
    exact (ih.evaluate scope callee).bind fun f => (ih.evaluateAll scope args).bind fun values =>
      ih.callValue f values span
  | methodCall object method args span =>
    exact (ih.evaluate scope object).bind fun found =>
      (ih.evaluateAll scope args).bind fun values =>
        Run.trims_within span (.inl (Method.call_oblivious found method values))
  | member object name span =>
    exact (ih.evaluate scope object).bind fun found =>
      Run.trims_ask span fun store => store.member_mapBodies found name
  | array elements span =>
    refine (ih.evaluateAll scope elements).bind fun values => ?_
    exact Run.Trims.bind (Run.trims_make fun _ => rfl) fun id => Run.trims_done (Value.array id)
  | index object index span =>
    exact (ih.evaluate scope object).bind fun found => (ih.evaluate scope index).bind fun place =>
      Run.trims_ask span fun store => store.index_mapBodies found place

/-- Several expressions do the same on trimmed machines, if they do with less fuel. -/
theorem evaluateAll_trims (ih : Trims limit fuel) (scope : ScopeId) (es : List Expr) :
    Run.Trims (evaluateAll limit (fuel + 1) scope es) (evaluateAll limit (fuel + 1) scope es) := by
  cases es with
  | nil => exact Run.trims_done []
  | cons e es =>
    exact (ih.evaluate scope e).bind fun value => (ih.evaluateAll scope es).bind fun values =>
      Run.trims_done (value :: values)

/-- Calls do the same on trimmed machines, if bodies do with less fuel. -/
theorem callValue_trims (ih : Trims limit fuel) (callee : Value) (args : List Value)
    (span : Span) :
    Run.Trims (callValue limit (fuel + 1) callee args span)
      (callValue limit (fuel + 1) callee args span) := by
  cases callee with
  | native f => exact Run.trims_within span (f.call_modest args)
  | function id =>
    intro m
    have hcall (m : Machine) : callValue limit (fuel + 1) (.function id) args span m =
        (enter limit id args span).andThen (fun found =>
          Run.deeper (executeAll limit fuel found.1 found.2 .null) >>= fun flow =>
            Run.done flow.callResult) m := rfl
    rw [hcall, hcall, Run.andThen, Run.andThen]
    rcases enter_mapBodies m m.trimmed rfl rfl limit id args span span
      with ⟨cause, he, he'⟩ | ⟨f, he, he'⟩
    · rw [he, he']
    · -- The body that is run is the one in the store, so it is run trimmed.
      rw [he, he']
      have hbody := (ih.executeAll m.store.nextScope f.body .null).deeper.bind fun flow =>
        Run.trims_done flow.callResult
      exact hbody (m.opened f.scope f.params args)
  | _ => exact fun _ => rfl

/-- Statements one after the other do the same on trimmed machines, if they do with less fuel. -/
theorem executeAll_trims (ih : Trims limit fuel) (scope : ScopeId) (body : List Stmt)
    (last : Value) :
    Run.Trims (executeAll limit (fuel + 1) scope body last)
      (executeAll limit (fuel + 1) scope (Program.trimmed body) last) := by
  cases body with
  | nil => exact Run.trims_done (Flow.normal last)
  | cons s body =>
    refine (ih.execute scope s).bind_of_done fun m flow mid hdone => ?_
    cases flow with
    | returned value => exact Run.trims_done (Flow.returned value)
    | normal value =>
      dsimp only
      rw [isGiveBack_eq_false hdone]
      exact ih.executeAll scope body value

/-- Loops with a condition do the same on trimmed machines, if they do with less fuel. -/
theorem executeWhile_trims (ih : Trims limit fuel) (scope : ScopeId) (condition : Expr)
    (body : Stmt) (last : Value) :
    Run.Trims (executeWhile limit (fuel + 1) scope condition body last)
      (executeWhile limit (fuel + 1) scope condition body.trimmed last) := by
  refine (ih.evaluate scope condition).bind fun value => ?_
  refine Run.trims_ite ?_ (Run.trims_done (Flow.normal last))
  refine (ih.execute scope body).bind fun flow => ?_
  cases flow with
  | normal value => exact ih.executeWhile scope condition body value
  | returned value => exact Run.trims_done (Flow.returned value)

/-- The rounds of a loop do the same on trimmed machines, if they do with less fuel. -/
theorem executeFor_trims (ih : Trims limit fuel) (scope : ScopeId) (binder : String)
    (items : List Value) (body : Stmt) (last : Value) :
    Run.Trims (executeFor limit (fuel + 1) scope binder items body last)
      (executeFor limit (fuel + 1) scope binder items body.trimmed last) := by
  cases items with
  | nil => exact Run.trims_done (Flow.normal last)
  | cons item items =>
    refine Run.Trims.bind (Run.trims_make fun _ => rfl) fun inner => ?_
    refine Run.Trims.bind (Run.trims_change fun _ => rfl) fun _ => ?_
    refine (ih.execute inner body).bind fun flow => ?_
    cases flow with
    | normal value => exact ih.executeFor scope binder items body value
    | returned value => exact Run.trims_done (Flow.returned value)

/-- Statements do the same on trimmed machines, if they do with less fuel. -/
theorem execute_trims (ih : Trims limit fuel) (scope : ScopeId) (s : Stmt) :
    Run.Trims (execute limit (fuel + 1) scope s) (execute limit (fuel + 1) scope s.trimmed) := by
  cases s with
  | expr e => exact (ih.evaluate scope e).bind fun value => Run.trims_done (Flow.normal value)
  | block body span =>
    exact Run.Trims.bind (Run.trims_make fun _ => rfl) fun inner => ih.executeAll inner body .null
  | cond condition yes no span =>
    cases no with
    | none =>
      exact (ih.evaluate scope condition).bind fun value =>
        Run.trims_ite (ih.execute scope yes) (Run.trims_done (Flow.normal .null))
    | some no =>
      exact (ih.evaluate scope condition).bind fun value =>
        Run.trims_ite (ih.execute scope yes) (ih.execute scope no)
  | whileLoop condition body span => exact ih.executeWhile scope condition body .null
  | forLoop binder items body span =>
    refine (ih.evaluate scope items).bind fun value => ?_
    exact (Run.trims_ask span (loopItems_mapBodies value)).bind fun found =>
      ih.executeFor scope binder found body .null
  | function name params body span =>
    refine Run.Trims.bind (Run.trims_make fun store => ?_) fun id => ?_
    · exact store.newClosure_mapBodies ⟨name, params, body, scope⟩
    · exact Run.Trims.bind (Run.trims_change fun _ => rfl) fun _ =>
        Run.trims_done (Flow.normal (.function id))
  | giveBack value span =>
    cases value with
    | none => exact Run.trims_done (Flow.returned .null)
    | some e => exact (ih.evaluate scope e).bind fun value => Run.trims_done (Flow.returned value)
  | importing => exact Run.trims_done (Flow.normal .null)

/-- All runs do on trimmed machines what they do otherwise. -/
theorem trims (limit fuel : Nat) : Trims limit fuel := by
  -- Each part of the evaluator calls the others with one unit of fuel less.
  induction fuel with
  | zero =>
    constructor <;> intros <;> exact Run.trims_outOfFuel
  | succ fuel ih =>
    exact {
      evaluate := evaluate_trims ih
      evaluateAll := evaluateAll_trims ih
      callValue := callValue_trims ih
      execute := execute_trims ih
      executeAll := executeAll_trims ih
      executeWhile := executeWhile_trims ih
      executeFor := executeFor_trims ih }

/-- A program does so too. -/
theorem runProgram_trims (limit fuel : Nat) (last : Value) (program : Program) :
    Run.Trims (runProgram limit fuel last program)
      (runProgram limit fuel last program.trimmed) := by
  induction program generalizing last with
  | nil => exact Run.trims_done last
  | cons s rest ih =>
    have hs := (trims limit fuel).execute Store.globalScope s
    refine hs.bind_of_done fun m flow mid hdone => ?_
    cases flow with
    | normal value =>
      dsimp only
      rw [isGiveBack_eq_false hdone]
      exact ih value
    | returned value =>
      dsimp only
      rw [s.span_trimmed]
      exact Run.trims_failed .returnOutsideFunction s.span

end Eval

/-! ## Runs that agree -/

/-- From machines that differ in nothing but what stands after a `return` in their closures, two
runs yield the same and leave such machines. -/
def Run.AgreeReached {α : Type} (run other : Run α) : Prop :=
  ∀ m m' : Machine, m.SameReached m' →
    (run m).1 = (other m').1 ∧ (run m).2.SameReached (other m').2

/-- Runs that have the same counterpart on trimmed machines agree. -/
theorem Run.Trims.agree {α : Type} {run other common : Run α} (h : run.Trims common)
    (h' : other.Trims common) : run.AgreeReached other := by
  intro m m' hm
  have heq : ((run m).1, (run m).2.trimmed) = ((other m').1, (other m').2.trimmed) := by
    rw [← h m, ← h' m', Machine.sameReached_iff.1 hm]
  obtain ⟨hyield, hleft⟩ := Prod.mk.inj heq
  exact ⟨hyield, Machine.sameReached_iff.2 hleft⟩

/-- A machine with another body in one of its closures. -/
def Machine.withBody (m : Machine) (id : ClosureId) (body : List Stmt) : Machine :=
  m.mapStore fun store =>
    { store with closures := store.closures.modify id.index fun f => { f with body } }

/-- Another body that is the same up to its returns makes no difference. -/
theorem Machine.sameReached_withBody {m : Machine} {id : ClosureId} {f : Closure}
    {body : List Stmt} (hf : m.store.closure? id = some f)
    (hbody : Program.trimmed f.body = Program.trimmed body) :
    m.SameReached (m.withBody id body) := by
  refine ⟨rfl, rfl, rfl, rfl, rfl, rfl, Array.ext_getElem? fun i => ?_⟩
  simp only [withBody, mapStore, Array.getElem?_map, Array.getElem?_modify]
  split
  · rename_i hi
    subst hi
    rw [show m.store.closures[id.index]? = some f from hf]
    simp only [Option.map_some, Closure.trimmed, Closure.mapBody, hbody]
  · rfl

/-- A statement returns only if a `return` stands in it outside the functions that are declared in
it, and so a program without such a `return` does not fail for one, whatever its functions do.

What stands after a `return` in a list of statements makes no difference. As a list or a block it is
the same run. As the body of a function, calls yield the same, show the same and leave the same, but
for the bodies themselves; and so do programs that have the same statements up to their returns, in
whatever functions these stand. -/
theorem Eval.return_flow (limit fuel : Nat) :
    (∀ scope s m value after, execute limit fuel scope s m = (.done (.returned value), after) →
      s.returns = true) ∧
    (∀ program : Program, program.returns = false → ∀ last m fault after,
      runProgram limit fuel last program m = (.failed fault, after) →
        fault.cause ≠ .returnOutsideFunction) ∧
    (∀ pre value span post,
      let long := pre ++ Stmt.giveBack value span :: post
      let short := pre ++ [Stmt.giveBack value span]
      (∀ scope last, executeAll limit fuel scope long last =
        executeAll limit fuel scope short last) ∧
      (∀ scope place, execute limit fuel scope (.block long place) =
        execute limit fuel scope (.block short place)) ∧
      (∀ (m : Machine) id f, m.store.closure? id = some f → f.body = long → ∀ args place,
        let run := callValue limit fuel (.function id) args place
        (run m).1 = (run (m.withBody id short)).1 ∧
          (run m).2.SameReached (run (m.withBody id short)).2) ∧
      (∀ name params place, (Stmt.function name params long place).trimmed =
        (Stmt.function name params short place).trimmed)) ∧
    ∀ program other : Program, program.trimmed = other.trimmed → ∀ last,
      (runProgram limit fuel last program).AgreeReached (runProgram limit fuel last other) := by
  refine ⟨fun scope s m value after h => ?_, fun program hreturns last m fault after h => ?_,
    fun pre value span post => ?_, fun program other heq last => ?_⟩
  · have hends := Task.ends limit fuel (.stmt scope s) m
    rw [show Task.run limit fuel (.stmt scope s) m = _ from h] at hends
    exact hends
  · have hends := runProgram_ends limit fuel last hreturns m
    rw [h] at hends
    exact hends
  · intro long short
    have htrimmed : Program.trimmed long = Program.trimmed short :=
      Program.trimmed_giveBack pre post value span
    refine ⟨fun scope last => executeAll_giveBack limit fuel scope pre post value span last,
      fun scope place => ?_, fun m id f hf hbody args place => ?_, fun name params place => ?_⟩
    · cases fuel with
      | zero => rfl
      | succ fuel =>
        funext m
        rw [execute_block, execute_block, executeAll_giveBack]
    · have hcall := (trims limit fuel).callValue (.function id) args place
      exact hcall.agree hcall _ _ (Machine.sameReached_withBody hf (hbody ▸ htrimmed))
    · rw [Stmt.trimmed, Stmt.trimmed, htrimmed]
  · have hother := runProgram_trims limit fuel last other
    rw [← heq] at hother
    exact (runProgram_trims limit fuel last program).agree hother

/-- A closure whose body is `return true` and then `return` gives back `true`, as it does without
the second. -/
theorem Eval.return_flow_first :
    let first := Stmt.giveBack (some (.bool true .anywhere)) .anywhere
    let second := Stmt.giveBack none .anywhere
    let m := (Session.start [] 8 8 [] .zeros).machine.mapStore fun store =>
      (store.newClosure ⟨"f", [], [first, second], Store.globalScope⟩).2
    second.returns = true ∧
      (∃ fault after, runProgram 8 9 .null [.expr (.call (.null .anywhere) [] .anywhere)] m =
        (.failed fault, after) ∧ fault.cause ≠ .returnOutsideFunction) ∧
      (callValue 8 9 (.function ⟨0⟩) [] .anywhere (m.withBody ⟨0⟩ [first])).1 =
        .done (.bool true) ∧
      (runProgram 8 9 .null [first, second]).AgreeReached (runProgram 8 9 .null [first]) := by
  intro first second m
  obtain ⟨hreturns, hfault, hbody, hprogram⟩ := return_flow 8 9
  obtain ⟨-, -, hcall, -⟩ := hbody [] (some (.bool true .anywhere)) .anywhere [second]
  refine ⟨hreturns Store.globalScope second m .null m rfl, ⟨_, _, rfl, ?_⟩, ?_,
    hprogram [first, second] [first] rfl .null⟩
  · exact hfault [.expr (.call (.null .anywhere) [] .anywhere)] rfl .null m _ _ rfl
  · exact (hcall m ⟨0⟩ _ rfl rfl [] .anywhere).1.symm

end QuantumScript
