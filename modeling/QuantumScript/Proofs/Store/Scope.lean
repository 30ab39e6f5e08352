import QuantumScript.Store

/-!
# Scopes and their names

How the changes of a store look from one of its scopes: binding a name changes only the scope it is
bound in, and no other name there; a new scope takes the next place and leaves the others alone.

`resolve?` is the nearest scope, from one outwards, that binds a name. Testing for a name and
overwriting it both come to that scope, so an assignment never fails (`Store.assign_eq`).
-/

namespace QuantumScript

variable {name : String} {value : Value}

/-! ## Names bound in one scope -/

/-- Binding a name that is bound already keeps the names as they are. -/
theorem map_fst_bind_of_mem {bindings : List (String × Value)}
    (h : name ∈ bindings.map Prod.fst) :
    (bind name value bindings).map Prod.fst = bindings.map Prod.fst := by
  induction bindings with
  | nil => cases h
  | cons binding bindings ih =>
    obtain ⟨other, old⟩ := binding
    rw [bind]
    split
    · rename_i heq
      simp [heq]
    · rename_i hne
      rcases List.mem_cons.1 h with rfl | hmem
      · exact absurd rfl hne
      · simp [ih hmem]

/-- Binding a name loses no name. -/
theorem map_fst_subset_bind (bindings : List (String × Value)) :
    bindings.map Prod.fst ⊆ (bind name value bindings).map Prod.fst := by
  induction bindings with
  | nil => simp
  | cons binding bindings ih =>
    obtain ⟨other, old⟩ := binding
    rw [bind]
    split
    · rename_i heq
      simp [heq]
    · exact List.cons_subset_cons other ih

namespace Scope

variable {scope : Scope}

/-- A scope has a value for the names that are bound in it. -/
theorem get?_isSome_iff : (scope.get? name).isSome ↔ name ∈ scope.bindings.map Prod.fst := by
  simp only [get?, List.lookup_isSome_iff, List.mem_map, beq_iff_eq]
  constructor
  · rintro ⟨binding, hmem, heq⟩
    exact ⟨binding, hmem, heq.symm⟩
  · rintro ⟨binding, hmem, heq⟩
    exact ⟨binding, hmem, heq.symm⟩

/-- The names of a scope are those that are bound in it. -/
theorem mem_names {other : String} : other ∈ scope.names ↔ other ∈ scope.bindings.map Prod.fst :=
  List.mem_mergeSort

/-- Binding a name loses no name. -/
theorem names_subset_define : scope.names ⊆ (scope.define name value).names := by
  intro other h
  rw [mem_names] at h ⊢
  exact map_fst_subset_bind scope.bindings h

/-- Binding a name that is bound already keeps the names as they are. -/
theorem names_define_of_bound (h : (scope.get? name).isSome) :
    (scope.define name value).names = scope.names := by
  unfold names define
  dsimp only
  rw [map_fst_bind_of_mem (get?_isSome_iff.1 h)]

end Scope

/-! ## Scopes of a store -/

namespace Store

variable {store : Store} {id other : ScopeId}

/-- Binding a name changes the scope it is bound in. -/
theorem scope?_define_self :
    (store.define id name value).scope? id =
      (store.scope? id).map fun scope => scope.define name value := by
  simp [scope?, define, Array.getElem?_modify]

/-- Binding a name changes no other scope. -/
theorem scope?_define_of_ne (h : id ≠ other) :
    (store.define id name value).scope? other = store.scope? other := by
  have hne : id.index ≠ other.index := by
    intro heq
    cases id
    cases other
    exact h (congrArg ScopeId.mk heq)
  simp [scope?, define, Array.getElem?_modify, hne]

/-- The name of the next scope that is made. -/
def nextScope (store : Store) : ScopeId := ⟨store.scopes.size⟩

/-- The next scope is not there yet. -/
theorem scope?_nextScope : store.scope? store.nextScope = none := by
  simp [scope?, nextScope]

/-- A new scope leaves the others alone. -/
theorem scope?_child_of_ne (parent : ScopeId) (h : other ≠ store.nextScope) :
    (store.child parent).2.scope? other = store.scope? other := by
  have hne : other.index ≠ store.scopes.size := by
    intro heq
    cases other
    exact h (congrArg ScopeId.mk heq)
  simp [scope?, child, Array.getElem?_push, hne]

/-- The first of some scopes, from one outwards, that binds a name. -/
def nearest? (scopes : Array Scope) (name : String) (index : Nat) : Option ScopeId :=
  match scopes[index]? with
  | none => none
  | some scope =>
    if (scope.get? name).isSome then some ⟨index⟩
    else
      match scope.outer? index with
      | none => none
      | some outer => nearest? scopes name outer.val
termination_by index
decreasing_by exact outer.property

/-- The nearest scope, from one outwards, that binds a name. -/
def resolve? (store : Store) (id : ScopeId) (name : String) : Option ScopeId :=
  nearest? store.scopes name id.index

/-- The nearest scope that binds a name binds it. -/
theorem nearest?_binds {scopes : Array Scope} {index : Nat} {found : ScopeId}
    (h : nearest? scopes name index = some found) :
    ∃ scope, scopes[found.index]? = some scope ∧ (scope.get? name).isSome := by
  -- The induction follows the walk from a scope to the one around it.
  fun_induction nearest? scopes name index with
  | case1 => cases h
  | case2 index scope hscope hbound =>
    cases h
    exact ⟨scope, hscope, hbound⟩
  | case3 => cases h
  | case4 index scope hscope hbound outer houter ih => exact ih h

/-- The scope that a name is resolved to binds it. -/
theorem resolve?_binds {found : ScopeId} (h : store.resolve? id name = some found) :
    ∃ scope, store.scope? found = some scope ∧ (scope.get? name).isSome :=
  nearest?_binds h

/-- Some scope from one outwards binds a name when there is a nearest one. -/
theorem anyBinds_eq (scopes : Array Scope) (name : String) (index : Nat) :
    anyBinds scopes name index = (nearest? scopes name index).isSome := by
  fun_induction nearest? scopes name index with
  | case1 index hscope => rw [anyBinds, hscope]; rfl
  | case2 index scope hscope hbound => rw [anyBinds, hscope]; simp [hbound]
  | case3 index scope hscope hbound houter =>
    rw [anyBinds, hscope]
    simp [hbound, houter]
  | case4 index scope hscope hbound outer houter ih =>
    rw [anyBinds, hscope]
    simp [hbound, houter, ih]

/-- A name is overwritten in the nearest scope that binds it. -/
theorem overwrite?_eq (scopes : Array Scope) (name : String) (value : Value) (index : Nat) :
    overwrite? scopes name value index = (nearest? scopes name index).map fun found =>
      scopes.modify found.index fun scope => scope.define name value := by
  fun_induction nearest? scopes name index with
  | case1 index hscope => rw [overwrite?, hscope]; rfl
  | case2 index scope hscope hbound => rw [overwrite?, hscope]; simp [hbound]
  | case3 index scope hscope hbound houter =>
    rw [overwrite?, hscope]
    simp [hbound, houter]
  | case4 index scope hscope hbound outer houter ih =>
    rw [overwrite?, hscope]
    simp [hbound, houter, ih]

/-- Overwriting a name binds it anew in the nearest scope that binds it, and fails if none does. -/
theorem set_eq (store : Store) (id : ScopeId) (name : String) (value : Value) :
    store.set id name value =
      match store.resolve? id name with
      | some found => .ok (store.define found name value)
      | none => .error (.undefinedVariable name) := by
  rw [set, overwrite?_eq, resolve?]
  cases nearest? store.scopes name id.index <;> rfl

/-- The store with a name bound anew in the nearest scope that binds it, or in the scope itself if
none does. -/
def assigned (store : Store) (id : ScopeId) (name : String) (value : Value) : Store :=
  store.define ((store.resolve? id name).getD id) name value

/-- An assignment never fails: it overwrites a name only where testing for it has found it. -/
theorem assign_eq (store : Store) (id : ScopeId) (name : String) (value : Value) :
    store.assign id name value = .ok (store.assigned id name value) := by
  rw [assign, binds, anyBinds_eq, set_eq, assigned, resolve?]
  cases nearest? store.scopes name id.index <;> rfl

end Store

end QuantumScript
