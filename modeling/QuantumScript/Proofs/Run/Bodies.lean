import QuantumScript.Proofs.Run.Effects

/-!
# What has no part in the bodies of closures

A program may be changed without a change of what it does, and then the closures that it makes have
other bodies. Where every closure of a store has its body changed in the same way
(`Store.mapBodies`), all questions about values have the answers that they had, and entering a
function fails for the same cause or opens the same scope for the changed body
(`Eval.enter_mapBodies`). Only the runs of bodies remain to be compared.
-/

namespace QuantumScript

variable {change : List Stmt → List Stmt}

/-- A closure with its body changed. -/
def Closure.mapBody (change : List Stmt → List Stmt) (f : Closure) : Closure :=
  { f with body := change f.body }

/-- A store with the bodies of its closures changed. -/
def Store.mapBodies (change : List Stmt → List Stmt) (store : Store) : Store :=
  { store with closures := store.closures.map (Closure.mapBody change) }

namespace Store

/-- The closures of a changed store are changed. -/
theorem closure?_mapBodies (store : Store) (id : ClosureId) :
    (store.mapBodies change).closure? id = (store.closure? id).map (Closure.mapBody change) := by
  simp [closure?, mapBodies]

/-- A changed store has the same names. -/
theorem sameNames_mapBodies (store : Store) : store.SameNames (store.mapBodies change) := by
  intro id
  rw [closure?_mapBodies, Option.map_map]
  rfl

/-- How values are shown has no part in bodies. -/
theorem display_mapBodies (store : Store) : (store.mapBodies change).display = store.display :=
  funext (display_withCode store.sameNames_mapBodies)

/-- What a binary operator makes of two values has no part in bodies. -/
theorem binary_mapBodies (store : Store) (op : BinaryOp) (left right : Value) :
    (store.mapBodies change).binary op left right = store.binary op left right :=
  binary_withCode store.sameNames_mapBodies op left right

/-- What a unary operator makes of a value has no part in bodies. -/
theorem unary_mapBodies (store : Store) (op : UnaryOp) (operand : Value) :
    (store.mapBodies change).unary op operand = store.unary op operand := by
  cases op <;> cases operand <;> rfl

/-- The members of a value have no part in bodies. -/
theorem member_mapBodies (store : Store) (object : Value) (name : String) :
    (store.mapBodies change).member object name = store.member object name := by
  cases object <;> rfl

/-- The items of an array have no part in bodies. -/
theorem index_mapBodies (store : Store) (object index : Value) :
    (store.mapBodies change).index object index = store.index object index := by
  cases object <;> rfl

/-- A changed closure added to a changed store is one added and changed. -/
theorem newClosure_mapBodies (store : Store) (f : Closure) :
    (store.mapBodies change).newClosure (f.mapBody change) =
      ((store.newClosure f).1, (store.newClosure f).2.mapBodies change) := by
  simp [newClosure, mapBodies]

end Store

namespace Eval

/-- The items that a loop goes through have no part in bodies. -/
theorem loopItems_mapBodies (value : Value) (store : Store) :
    loopItems value (store.mapBodies change) = loopItems value store := by
  cases value <;> rfl

/-- Binding parameters has no part in bodies. -/
theorem bindAll_mapBodies (scope : ScopeId) (params : List String) (args : List Value)
    (store : Store) :
    bindAll scope params args (store.mapBodies change) =
      (bindAll scope params args store).mapBodies change := by
  unfold bindAll
  induction params.zip args generalizing store with
  | nil => rfl
  | cons pair pairs ih => exact ih (store.define scope pair.1 pair.2)

/-- On a machine of the same depth with changed bodies, entering a function fails for the same
cause, or opens the same scope for the changed body. -/
theorem enter_mapBodies (m other : Machine) (hstore : other.store = m.store.mapBodies change)
    (hdepth : other.depth = m.depth) (limit : Nat) (id : ClosureId) (args : List Value)
    (span span' : Span) :
    (∃ cause, enter limit id args span m = (.failed ⟨cause, some span⟩, m) ∧
      enter limit id args span' other = (.failed ⟨cause, some span'⟩, other)) ∨
    ∃ f : Closure,
      enter limit id args span m =
        (.done (m.store.nextScope, f.body), m.opened f.scope f.params args) ∧
      enter limit id args span' other =
        (.done (m.store.nextScope, change f.body),
          { other with store := (m.opened f.scope f.params args).store.mapBodies change }) := by
  unfold enter
  rw [hstore, hdepth, Store.closure?_mapBodies]
  cases m.store.closure? id with
  | none => exact .inl ⟨_, rfl, rfl⟩
  | some f =>
    dsimp only [Option.map_some]
    -- The number of arguments is checked before the depth.
    by_cases hargs : args.length ≠ f.params.length
    · rw [if_pos hargs]
      exact .inl ⟨_, rfl, if_pos hargs⟩
    · rw [if_neg hargs]
      by_cases hlimit : limit ≤ m.depth
      · rw [if_pos hlimit]
        exact .inl ⟨_, rfl, (if_neg hargs).trans (if_pos hlimit)⟩
      · rw [if_neg hlimit]
        refine .inr ⟨f, rfl, (if_neg hargs).trans ((if_neg hlimit).trans ?_)⟩
        have hopened : bindAll m.store.nextScope f.params args
            ((m.store.child f.scope).2.mapBodies change) = _ := bindAll_mapBodies _ _ _ _
        exact Prod.ext rfl (congrArg (fun store => { other with store, depth := m.depth }) hopened)

end Eval

end QuantumScript
