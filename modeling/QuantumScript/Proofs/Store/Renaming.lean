import QuantumScript.Proofs.Program.Renaming
import QuantumScript.Proofs.Run.Effects

/-!
# Stores with renamed variables

In a store with renamed variables every scope binds the new names, and every closure has renamed
parameters and a renamed body; nothing else changes. As long as a renaming covers what is bound and
declared (`Store.Covered`), a new name is found and bound exactly where the old one was: looking up,
binding, overwriting, opening a scope and declaring a function all go through the renaming.
-/

namespace QuantumScript

variable {ρ : Renaming} {name : String} {value : Value}

/-- Bindings with their names renamed. -/
def renamedBindings (ρ : Renaming) (bindings : List (String × Value)) : List (String × Value) :=
  bindings.map fun binding => (ρ.name binding.1, binding.2)

/-- A scope with its names renamed. -/
def Scope.renamed (ρ : Renaming) (scope : Scope) : Scope :=
  { scope with bindings := renamedBindings ρ scope.bindings }

/-- A closure with the variables of its function renamed. -/
def Closure.renamed (ρ : Renaming) (f : Closure) : Closure :=
  { f with params := f.params.map ρ.name, body := renamedStmts ρ f.body }

/-- A store with the variables of its scopes and closures renamed. -/
def Store.renamed (ρ : Renaming) (store : Store) : Store :=
  { store with
    scopes := store.scopes.map (Scope.renamed ρ)
    closures := store.closures.map (Closure.renamed ρ) }

/-- The names bound in a scope are covered. -/
def Scope.Covered (ρ : Renaming) (scope : Scope) : Prop :=
  ∀ binding ∈ scope.bindings, ρ.covers binding.1

/-- The names of a closure are covered. -/
def Closure.Covered (ρ : Renaming) (f : Closure) : Prop :=
  ρ.Covers (f.params ++ stmtsVariables f.body) (stmtsFunctions f.body)

/-- All names of a store are covered. -/
structure Store.Covered (ρ : Renaming) (store : Store) : Prop where
  /-- The names that are bound are covered. -/
  scopes : ∀ scope ∈ store.scopes, scope.Covered ρ
  /-- The names that closures use are covered. -/
  closures : ∀ f ∈ store.closures, f.Covered ρ

/-! ## One scope -/

/-- A new name has the value of the old one. -/
theorem lookup_renamedBindings {bindings : List (String × Value)} (hname : ρ.covers name)
    (h : ∀ binding ∈ bindings, ρ.covers binding.1) :
    (renamedBindings ρ bindings).lookup (ρ.name name) = bindings.lookup name := by
  induction bindings with
  | nil => rfl
  | cons binding bindings ih =>
    obtain ⟨hfirst, hrest⟩ := List.forall_mem_cons.1 h
    obtain ⟨other, old⟩ := binding
    have hother : (ρ.name name == ρ.name other) = (name == other) :=
      Bool.eq_iff_iff.2 (by
        simp only [beq_iff_eq]
        exact ⟨ρ.apart hname hfirst, congrArg ρ.name⟩)
    show List.lookup (ρ.name name) ((ρ.name other, old) :: renamedBindings ρ bindings) = _
    rw [List.lookup_cons, List.lookup_cons, hother, ih hrest]

/-- A new name is bound where the old one would be. -/
theorem bind_renamedBindings {bindings : List (String × Value)} (hname : ρ.covers name)
    (h : ∀ binding ∈ bindings, ρ.covers binding.1) :
    bind (ρ.name name) value (renamedBindings ρ bindings) =
      renamedBindings ρ (bind name value bindings) := by
  induction bindings with
  | nil => rfl
  | cons binding bindings ih =>
    obtain ⟨hfirst, hrest⟩ := List.forall_mem_cons.1 h
    obtain ⟨other, old⟩ := binding
    show bind (ρ.name name) value ((ρ.name other, old) :: renamedBindings ρ bindings) = _
    rw [bind, bind]
    by_cases heq : other = name
    · rw [if_pos heq, if_pos (congrArg ρ.name heq)]
      rfl
    · rw [if_neg heq, if_neg fun hsame => heq (ρ.apart hfirst hname hsame), ih hrest]
      rfl

/-- Binding a covered name leaves all names covered. -/
theorem covers_bind {bindings : List (String × Value)} (hname : ρ.covers name)
    (h : ∀ binding ∈ bindings, ρ.covers binding.1) :
    ∀ binding ∈ bind name value bindings, ρ.covers binding.1 := by
  induction bindings with
  | nil => exact List.forall_mem_singleton.2 hname
  | cons binding bindings ih =>
    obtain ⟨hfirst, hrest⟩ := List.forall_mem_cons.1 h
    rw [bind]
    split
    · exact List.forall_mem_cons.2 ⟨hname, hrest⟩
    · exact List.forall_mem_cons.2 ⟨hfirst, ih hrest⟩

/-- A new name has the value of the old one in a scope. -/
theorem Scope.get?_renamed {scope : Scope} (hname : ρ.covers name) (h : scope.Covered ρ) :
    (scope.renamed ρ).get? (ρ.name name) = scope.get? name :=
  lookup_renamedBindings hname h

/-- A new name is bound in a scope as the old one would be. -/
theorem Scope.define_renamed {scope : Scope} (hname : ρ.covers name) (h : scope.Covered ρ) :
    (scope.renamed ρ).define (ρ.name name) value = (scope.define name value).renamed ρ := by
  unfold define renamed
  rw [bind_renamedBindings hname h]

namespace Store

variable {store : Store} {id : ScopeId}

/-! ## Looking up and binding -/

/-- A new name is found with the value of the old one. -/
theorem lookup?_renamed {scopes : Array Scope} (hname : ρ.covers name)
    (h : ∀ scope ∈ scopes, scope.Covered ρ) (index : Nat) :
    lookup? (scopes.map (Scope.renamed ρ)) (ρ.name name) index = lookup? scopes name index := by
  -- The induction follows the walk from a scope to the one around it.
  fun_induction lookup? scopes name index with
  | case1 index hscope => rw [lookup?, Array.getElem?_map, hscope]; rfl
  | case2 index scope hscope value hvalue =>
    rw [lookup?, Array.getElem?_map, hscope]
    dsimp only [Option.map_some]
    rw [Scope.get?_renamed hname (h scope (Array.mem_of_getElem? hscope)), hvalue]
  | case3 index scope hscope hvalue houter =>
    rw [lookup?, Array.getElem?_map, hscope]
    dsimp only [Option.map_some]
    rw [Scope.get?_renamed hname (h scope (Array.mem_of_getElem? hscope)), hvalue]
    have houter' : (scope.renamed ρ).outer? index = none := houter
    rw [houter']
  | case4 index scope hscope hvalue outer houter ih =>
    rw [lookup?, Array.getElem?_map, hscope]
    dsimp only [Option.map_some]
    rw [Scope.get?_renamed hname (h scope (Array.mem_of_getElem? hscope)), hvalue]
    have houter' : (scope.renamed ρ).outer? index = some outer := houter
    rw [houter']
    exact ih

/-- The nearest scope that binds a new name is the one that binds the old name. -/
theorem nearest?_renamed {scopes : Array Scope} (hname : ρ.covers name)
    (h : ∀ scope ∈ scopes, scope.Covered ρ) (index : Nat) :
    nearest? (scopes.map (Scope.renamed ρ)) (ρ.name name) index = nearest? scopes name index := by
  fun_induction nearest? scopes name index with
  | case1 index hscope => rw [nearest?, Array.getElem?_map, hscope]; rfl
  | case2 index scope hscope hbound =>
    rw [nearest?, Array.getElem?_map, hscope]
    dsimp only [Option.map_some]
    rw [Scope.get?_renamed hname (h scope (Array.mem_of_getElem? hscope)), if_pos hbound]
  | case3 index scope hscope hbound houter =>
    rw [nearest?, Array.getElem?_map, hscope]
    dsimp only [Option.map_some]
    rw [Scope.get?_renamed hname (h scope (Array.mem_of_getElem? hscope)), if_neg hbound]
    have houter' : (scope.renamed ρ).outer? index = none := houter
    rw [houter']
  | case4 index scope hscope hbound outer houter ih =>
    rw [nearest?, Array.getElem?_map, hscope]
    dsimp only [Option.map_some]
    rw [Scope.get?_renamed hname (h scope (Array.mem_of_getElem? hscope)), if_neg hbound]
    have houter' : (scope.renamed ρ).outer? index = some outer := houter
    rw [houter']
    exact ih

/-- A new name is found with the value of the old one. -/
theorem get?_renamed (h : store.Covered ρ) (hname : ρ.covers name) :
    (store.renamed ρ).get? id (ρ.name name) = store.get? id name :=
  lookup?_renamed hname h.scopes id.index

/-- Binding a new name is binding the old one, renamed. -/
theorem define_renamed (h : store.Covered ρ) (hname : ρ.covers name) :
    (store.renamed ρ).define id (ρ.name name) value = (store.define id name value).renamed ρ := by
  have hscopes : (store.scopes.map (Scope.renamed ρ)).modify id.index
      (fun scope => scope.define (ρ.name name) value) =
        (store.scopes.modify id.index fun scope => scope.define name value).map
          (Scope.renamed ρ) := by
    refine Array.ext_getElem? fun i => ?_
    rw [Array.getElem?_modify, Array.getElem?_map, Array.getElem?_map, Array.getElem?_modify]
    cases hscope : store.scopes[i]? with
    | none => simp
    | some scope =>
      split
      · dsimp only [Option.map_some]
        rw [Scope.define_renamed hname (h.scopes scope (Array.mem_of_getElem? hscope))]
      · rfl
  unfold define renamed
  dsimp only
  rw [hscopes]

/-- Binding a covered name leaves all names covered. -/
theorem Covered.define (h : store.Covered ρ) (hname : ρ.covers name) :
    (store.define id name value).Covered ρ := by
  refine ⟨fun scope hscope => ?_, h.closures⟩
  obtain ⟨i, hi⟩ := Array.mem_iff_getElem?.1 hscope
  rw [Store.define, Array.getElem?_modify] at hi
  split at hi
  · obtain ⟨old, hold, rfl⟩ := Option.map_eq_some_iff.1 hi
    exact covers_bind hname (h.scopes old (Array.mem_of_getElem? hold))
  · exact h.scopes scope (Array.mem_of_getElem? hi)

/-- Assigning a new name is assigning the old one, renamed. -/
theorem assigned_renamed (h : store.Covered ρ) (hname : ρ.covers name) :
    (store.renamed ρ).assigned id (ρ.name name) value =
      (store.assigned id name value).renamed ρ := by
  have hresolve : (store.renamed ρ).resolve? id (ρ.name name) = store.resolve? id name :=
    nearest?_renamed hname h.scopes id.index
  rw [assigned, hresolve, define_renamed h hname]
  rfl

/-- Opening a scope goes through a renaming. -/
theorem child_renamed (store : Store) (parent : ScopeId) :
    (store.renamed ρ).child parent =
      ((store.child parent).1, (store.child parent).2.renamed ρ) := by
  simp [child, renamed, Scope.renamed, renamedBindings]

/-- The next scope does not depend on names. -/
theorem nextScope_renamed (store : Store) : (store.renamed ρ).nextScope = store.nextScope := by
  simp [nextScope, renamed]

/-- A new scope binds nothing. -/
theorem Covered.child (h : store.Covered ρ) (parent : ScopeId) :
    (store.child parent).2.Covered ρ := by
  refine ⟨fun scope hscope => ?_, h.closures⟩
  rcases Array.mem_push.1 hscope with hscope | rfl
  · exact h.scopes scope hscope
  · exact fun binding hbinding => absurd hbinding List.not_mem_nil

/-! ## Closures -/

/-- The closures of a renamed store are renamed. -/
theorem closure?_renamed (store : Store) (id : ClosureId) :
    (store.renamed ρ).closure? id = (store.closure? id).map (Closure.renamed ρ) := by
  simp [closure?, renamed]

/-- A renamed store has the same names of closures. -/
theorem sameNames_renamed (store : Store) : store.SameNames (store.renamed ρ) := by
  intro id
  rw [closure?_renamed, Option.map_map]
  rfl

/-- Adding a closure goes through a renaming. -/
theorem newClosure_renamed (store : Store) (f : Closure) :
    (store.renamed ρ).newClosure (f.renamed ρ) =
      ((store.newClosure f).1, (store.newClosure f).2.renamed ρ) := by
  simp [newClosure, renamed]

/-- Adding a covered closure leaves all names covered. -/
theorem Covered.newClosure {f : Closure} (h : store.Covered ρ) (hf : f.Covered ρ) :
    (store.newClosure f).2.Covered ρ := by
  refine ⟨h.scopes, fun g hg => ?_⟩
  rcases Array.mem_push.1 hg with hg | rfl
  · exact h.closures g hg
  · exact hf

/-! ## What does not depend on names -/

/-- What a binary operator makes of two values does not depend on names. -/
theorem binary_renamed (store : Store) (op : BinaryOp) (left right : Value) :
    (store.renamed ρ).binary op left right = store.binary op left right :=
  binary_withCode store.sameNames_renamed op left right

/-- How a value is shown does not depend on names. -/
theorem display_renamed (store : Store) (value : Value) :
    (store.renamed ρ).display value = store.display value :=
  display_withCode store.sameNames_renamed value

end Store

/-- Binding parameters goes through a renaming, and leaves all names covered. -/
theorem Eval.bindAll_renamed {store : Store} {params : List String} (args : List Value)
    (scope : ScopeId) (h : store.Covered ρ) (hparams : ∀ n ∈ params, ρ.covers n) :
    (bindAll scope params args store).Covered ρ ∧
      bindAll scope (params.map ρ.name) args (store.renamed ρ) =
        (bindAll scope params args store).renamed ρ := by
  unfold bindAll
  induction params generalizing args store with
  | nil => exact ⟨h, rfl⟩
  | cons param params ih =>
    cases args with
    | nil => exact ⟨h, rfl⟩
    | cons arg args =>
      obtain ⟨hparam, hrest⟩ := List.forall_mem_cons.1 hparams
      have hdefine : (store.renamed ρ).define scope (ρ.name param) arg =
          (store.define scope param arg).renamed ρ := Store.define_renamed h hparam
      have hcovered : (store.define scope param arg).Covered ρ := h.define hparam
      have hbound := ih args hcovered hrest
      simp only [List.map_cons, List.zip_cons_cons, List.foldl_cons, hdefine]
      exact hbound

end QuantumScript
