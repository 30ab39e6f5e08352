import QuantumScript.Outcome
import QuantumScript.Proofs.Store.WellFormed

/-!
# Lookups in a tree of scopes

The scopes of a store form a tree: they start as one root and change by new children, new bindings
and overwritten ones (`Store.Built`). Reading a name, testing for it and overwriting it are three
walks outwards, each written on its own. `Store.NearestBinding` says by parents and bindings alone
where such a walk should end, and `Store.IsTree.resolve?_eq_some_iff` that it ends there. So the
three succeed together, and `Store.lookups_of_built` says which lookups a change is seen from.

What a binding changes is proved for `Store.define` in any scope (`Store.IsTree.get?_define`).
Overwriting a name is binding it anew in its nearest scope, and a scope that binds a name is reached
before any other binding of it exactly where it is the nearest.
-/

namespace QuantumScript

variable {name : String} {value : Value}

/-! ## One scope -/

/-- After a name is bound it has its new value, and the other names have the values they had. -/
theorem lookup_bind (bindings : List (String × Value)) (other : String) :
    (bind name value bindings).lookup other =
      if other = name then some value else bindings.lookup other := by
  induction bindings with
  | nil =>
    by_cases h : other = name
    · simp [bind, h]
    · simp [bind, List.lookup_cons, h, beq_false_of_ne h]
  | cons binding bindings ih =>
    obtain ⟨first, old⟩ := binding
    rw [bind]
    by_cases hfirst : first = name
    · subst hfirst
      by_cases h : other = first
      · simp [h]
      · simp [List.lookup_cons, h, beq_false_of_ne h]
    · rw [if_neg hfirst]
      by_cases h : other = first
      · subst h
        simp [hfirst]
      · simp [List.lookup_cons, beq_false_of_ne h, ih]

/-- The names bound in a scope stay different from each other. -/
theorem nodup_map_fst_bind {bindings : List (String × Value)}
    (h : (bindings.map Prod.fst).Nodup) : ((bind name value bindings).map Prod.fst).Nodup := by
  induction bindings with
  | nil => simp [bind]
  | cons binding bindings ih =>
    obtain ⟨first, old⟩ := binding
    rw [List.map_cons, List.nodup_cons] at h
    rw [bind]
    split
    · rename_i heq
      subst heq
      exact List.nodup_cons.2 h
    · rename_i hne
      refine List.nodup_cons.2 ⟨fun hmem => ?_, ih h.2⟩
      obtain ⟨binding, hbinding, rfl⟩ := List.mem_map.1 hmem
      rcases Store.mem_bind hbinding with rfl | hold
      · exact hne rfl
      · exact h.1 (List.mem_map.2 ⟨binding, hold, rfl⟩)

/-- The names of a scope are in ascending order without repeats if they are bound once each. -/
theorem Scope.pairwise_names {scope : Scope} (h : (scope.bindings.map Prod.fst).Nodup) :
    scope.names.Pairwise (· < ·) := by
  have htrans (a b c : String) (hab : decide (a ≤ b) = true) (hbc : decide (b ≤ c) = true) :
      decide (a ≤ c) = true :=
    decide_eq_true (String.le_trans (of_decide_eq_true hab) (of_decide_eq_true hbc))
  have htotal (a b : String) : (decide (a ≤ b) || decide (b ≤ a)) = true := by
    simpa using String.le_total a b
  have hsorted : scope.names.Pairwise (· ≤ ·) :=
    (List.pairwise_mergeSort htrans htotal (scope.bindings.map Prod.fst)).imp of_decide_eq_true
  have hdistinct : scope.names.Nodup := (List.mergeSort_perm _ _).nodup_iff.2 h
  exact hsorted.imp₂ (fun a b hle hne => Std.lt_of_le_of_ne hle hne) hdistinct

namespace Store

variable {store after : Store} {id found other parent target : ScopeId}

/-! ## Where a name is bound -/

/-- The value a name is bound to in a scope itself. -/
def own? (store : Store) (id : ScopeId) (name : String) : Option Value :=
  (store.scope? id).bind fun scope => scope.get? name

/-- The scope around another. -/
def parent? (store : Store) (id : ScopeId) : Option ScopeId :=
  (store.scope? id).bind Scope.parent

/-- A scope binds a name, and none does on the way to it from another, which may be the scope
itself. -/
inductive NearestBinding (store : Store) (name : String) : ScopeId → ScopeId → Prop
  /-- The scope to start from binds it. -/
  | here {id : ScopeId} (bound : (store.own? id name).isSome) : NearestBinding store name id id
  /-- The scope to start from does not, so that the scope around it decides. -/
  | around {id parent found : ScopeId} (free : store.own? id name = none)
    (next : store.parent? id = some parent) (rest : NearestBinding store name parent found) :
    NearestBinding store name id found

/-- The way from a scope outwards reaches another before any other scope that binds a name. -/
inductive ReachesFirst (store : Store) (name : String) (target : ScopeId) : ScopeId → Prop
  /-- The way starts at the other scope. -/
  | here : ReachesFirst store name target target
  /-- The scope to start from does not bind the name, and the way goes on there. -/
  | around {id parent : ScopeId} (free : store.own? id name = none)
    (next : store.parent? id = some parent) (rest : ReachesFirst store name target parent) :
    ReachesFirst store name target id

/-- The stores whose scopes were made from one root by new children, new bindings and overwritten
ones. -/
inductive Built : Store → Prop
  /-- At first there is a root, which binds nothing. -/
  | root : Built initial
  /-- A scope of the tree is given a child. -/
  | child {store : Store} {parent : ScopeId} (tree : Built store) (has : store.HasScope parent) :
    Built (store.child parent).2
  /-- A name is bound in a scope. -/
  | define {store : Store} (tree : Built store) (id : ScopeId) (name : String) (value : Value) :
    Built (store.define id name value)
  /-- A name is overwritten. -/
  | set {store after : Store} {id : ScopeId} {name : String} {value : Value} (tree : Built store)
    (done : store.set id name value = .ok after) : Built after
  /-- The arrays, objects and closures change. -/
  | elsewhere {store after : Store} (tree : Built store) (same : after.scopes = store.scopes) :
    Built after

/-- What every change of a tree of scopes keeps. -/
structure IsTree (store : Store) : Prop where
  /-- The scope around another was made before it. -/
  earlier : ∀ {id parent}, store.parent? id = some parent → parent.index < id.index
  /-- No scope binds a name twice. -/
  distinct : ∀ {id scope}, store.scope? id = some scope → (scope.bindings.map Prod.fst).Nodup

/-! ## Changes of a tree -/

/-- Binding a name gives it its value in the scope, and changes no other name and no other scope. -/
theorem own?_define (has : store.HasScope id) (other : ScopeId) (m : String) :
    (store.define id name value).own? other m =
      if other = id ∧ m = name then some value else store.own? other m := by
  by_cases heq : id = other
  · subst heq
    obtain ⟨scope, hscope⟩ := hasScope_iff.1 has
    simp [own?, scope?_define_self, hscope, Scope.get?, Scope.define, lookup_bind]
  · rw [own?, scope?_define_of_ne heq, if_neg fun h => heq h.1.symm]
    rfl

/-- Binding a name leaves the tree as it is. -/
theorem parent?_define (store : Store) (id other : ScopeId) (name : String) (value : Value) :
    (store.define id name value).parent? other = store.parent? other := by
  by_cases heq : id = other
  · subst heq
    rw [parent?, parent?, scope?_define_self]
    cases store.scope? id <;> rfl
  · rw [parent?, parent?, scope?_define_of_ne heq]

/-- A change of one binding keeps the tree. -/
theorem IsTree.define (h : store.IsTree) (id : ScopeId) (name : String) (value : Value) :
    (store.define id name value).IsTree where
  earlier hparent := h.earlier (parent?_define store id _ name value ▸ hparent)
  distinct {other scope} hscope := by
    by_cases heq : id = other
    · subst heq
      rw [scope?_define_self, Option.map_eq_some_iff] at hscope
      obtain ⟨old, hold, rfl⟩ := hscope
      exact nodup_map_fst_bind (h.distinct hold)
    · rw [scope?_define_of_ne heq] at hscope
      exact h.distinct hscope

/-- A child keeps the tree. -/
theorem IsTree.child (h : store.IsTree) (has : store.HasScope parent) :
    (store.child parent).2.IsTree where
  earlier {id outer} hparent := by
    by_cases hnext : id = store.nextScope
    · subst hnext
      rw [parent?, scope?_child_self] at hparent
      cases hparent
      exact has
    · rw [parent?, scope?_child_of_ne parent hnext] at hparent
      exact h.earlier hparent
  distinct {id scope} hscope := by
    by_cases hnext : id = store.nextScope
    · subst hnext
      rw [scope?_child_self] at hscope
      cases hscope
      exact List.nodup_nil
    · rw [scope?_child_of_ne parent hnext] at hscope
      exact h.distinct hscope

/-- A successful overwriting binds the name anew in the scope that it is resolved to. -/
theorem set_eq_ok (h : store.set id name value = .ok after) :
    ∃ found, store.resolve? id name = some found ∧ after = store.define found name value := by
  rw [set_eq] at h
  cases hfound : store.resolve? id name with
  | none => simp [hfound] at h
  | some found =>
    rw [hfound] at h
    exact ⟨found, rfl, (Except.ok.inj h).symm⟩

/-- What was built is a tree. -/
theorem Built.isTree (h : store.Built) : store.IsTree := by
  induction h with
  | root =>
    have hroot {id : ScopeId} {scope : Scope} (hscope : initial.scope? id = some scope) :
        scope = ⟨none, []⟩ :=
      List.mem_singleton.1 (Array.mem_toList_iff.2 (Array.mem_of_getElem? hscope))
    refine ⟨fun {id parent} hparent => ?_, fun hscope => ?_⟩
    · obtain ⟨scope, hscope, hends⟩ := Option.bind_eq_some_iff.1 hparent
      rw [hroot hscope] at hends
      cases hends
    · rw [hroot hscope]
      exact List.nodup_nil
  | child _ has ih => exact ih.child has
  | define _ id name value ih => exact ih.define id name value
  | set _ done ih =>
    obtain ⟨found, -, rfl⟩ := set_eq_ok done
    exact ih.define _ _ _
  | @elsewhere store after _ same ih =>
    have hscope? (id : ScopeId) : after.scope? id = store.scope? id := by
      rw [scope?, same]
      rfl
    refine ⟨fun {id parent} hparent => ?_, fun hscope => ih.distinct (hscope? _ ▸ hscope)⟩
    rw [parent?, hscope?] at hparent
    exact ih.earlier hparent

/-! ## The three walks -/

/-- A name has the value that it is bound to where it is resolved to. -/
theorem get?_eq (store : Store) (id : ScopeId) (name : String) :
    store.get? id name = (store.resolve? id name).bind fun found => store.own? found name := by
  unfold get? resolve?
  generalize id.index = index
  -- The induction follows the walk from a scope to the one around it.
  fun_induction nearest? store.scopes name index with
  | case1 index hscope => rw [lookup?, hscope]; rfl
  | case2 index scope hscope hbound =>
    obtain ⟨value, hvalue⟩ := Option.isSome_iff_exists.1 hbound
    rw [lookup?, hscope]
    simp [hvalue, own?, scope?, hscope]
  | case3 index scope hscope hbound houter =>
    rw [lookup?, hscope]
    simp [Option.not_isSome_iff_eq_none.1 hbound, houter]
  | case4 index scope hscope hbound outer houter ih =>
    rw [lookup?, hscope]
    simp [Option.not_isSome_iff_eq_none.1 hbound, houter, ih]

/-- The walk from a scope of a tree ends there if it binds the name, and else goes on from the scope
around it. -/
theorem IsTree.resolve?_eq (h : store.IsTree) (id : ScopeId) (name : String) :
    store.resolve? id name =
      if (store.own? id name).isSome then some id
      else (store.parent? id).bind fun parent => store.resolve? parent name := by
  rw [resolve?, nearest?]
  cases hscope : store.scope? id with
  | none =>
    simp only [show store.scopes[id.index]? = none from hscope, own?, parent?, hscope]
    rfl
  | some scope =>
    simp only [show store.scopes[id.index]? = some scope from hscope, own?, parent?, hscope,
      Option.bind_some]
    split
    · rfl
    · unfold Scope.outer?
      cases hparent : scope.parent with
      | none => rfl
      | some parent =>
        have hlt : parent.index < id.index := by
          refine h.earlier ?_
          rw [Store.parent?, hscope]
          exact hparent
        simp [hlt, resolve?]

/-- The walk from a scope of a tree ends at its nearest binding. -/
theorem IsTree.resolve?_eq_some_iff (h : store.IsTree) :
    store.resolve? id name = some found ↔ store.NearestBinding name id found := by
  constructor
  · intro hfound
    -- The induction is on the place of the scope, since a parent comes before its child.
    induction hn : id.index using Nat.strongRecOn generalizing id with
    | _ n ih =>
      subst hn
      rw [h.resolve?_eq] at hfound
      split at hfound
      · rename_i hbound
        cases hfound
        exact .here hbound
      · rename_i hfree
        obtain ⟨parent, hparent, hrest⟩ := Option.bind_eq_some_iff.1 hfound
        exact .around (Option.not_isSome_iff_eq_none.1 hfree) hparent
          (ih parent.index (h.earlier hparent) hrest rfl)
  · intro hnear
    induction hnear with
    | here bound => rw [h.resolve?_eq, if_pos bound]
    | around free next _ ih =>
      rw [h.resolve?_eq, free, next]
      exact ih

/-- A name has the value it is bound to in a scope of a tree, or else the one it has around it. -/
theorem IsTree.get?_eq_or (h : store.IsTree) (id : ScopeId) (name : String) :
    store.get? id name =
      (store.own? id name).or ((store.parent? id).bind fun parent => store.get? parent name) := by
  rw [Store.get?_eq, h.resolve?_eq]
  split
  · rename_i hbound
    obtain ⟨value, hvalue⟩ := Option.isSome_iff_exists.1 hbound
    simp [hvalue]
  · rename_i hfree
    rw [Option.not_isSome_iff_eq_none.1 hfree, Option.none_or, Option.bind_assoc]
    simp only [Store.get?_eq]

/-! ## What a binding is seen from -/

/-- A binding in a scope is seen from where the way outwards reaches that scope before any other
that binds the name. -/
theorem IsTree.get?_define_of_reachesFirst (h : store.IsTree) (has : store.HasScope target)
    (hreach : store.ReachesFirst name target id) :
    (store.define target name value).get? id name = some value := by
  induction hreach with
  | here => rw [(h.define target name value).get?_eq_or, own?_define has]; simp
  | @around id parent free next _ ih =>
    rw [(h.define target name value).get?_eq_or, own?_define has, parent?_define, next, free]
    by_cases heq : id = target
    · simp [heq]
    · simpa [heq] using ih

/-- No other lookup sees it. -/
theorem IsTree.get?_define_of_not (h : store.IsTree) (has : store.HasScope target) {m : String}
    (hnot : ¬(m = name ∧ store.ReachesFirst name target id)) :
    (store.define target name value).get? id m = store.get? id m := by
  -- The induction is on the place of the scope, since a parent comes before its child.
  induction hn : id.index using Nat.strongRecOn generalizing id with
  | _ n ih =>
    subst hn
    have hown : (store.define target name value).own? id m = store.own? id m := by
      rw [own?_define has]
      refine if_neg ?_
      rintro ⟨rfl, rfl⟩
      exact hnot ⟨rfl, .here⟩
    rw [(h.define target name value).get?_eq_or, h.get?_eq_or, hown, parent?_define]
    cases hfree : store.own? id m with
    | some _ => rfl
    | none =>
      cases hparent : store.parent? id with
      | none => rfl
      | some parent =>
        refine ih parent.index (h.earlier hparent) ?_ rfl
        rintro ⟨rfl, hreach⟩
        exact hnot ⟨rfl, .around hfree hparent hreach⟩

/-- A scope that binds a name is reached before any other that does exactly where it is the nearest
binding. -/
theorem reachesFirst_iff_nearestBinding (hbound : (store.own? target name).isSome) :
    store.ReachesFirst name target id ↔ store.NearestBinding name id target := by
  constructor
  · intro hreach
    induction hreach with
    | here => exact .here hbound
    | around free next _ ih => exact .around free next ih
  · intro hnear
    induction hnear with
    | here _ => exact .here
    | around free next _ ih => exact .around free next (ih hbound)

/-- The nearest binding of a name binds it. -/
theorem NearestBinding.bound (h : store.NearestBinding name id found) :
    (store.own? found name).isSome := by
  induction h with
  | here bound => exact bound
  | around _ _ _ ih => exact ih

/-- A scope that binds a name is in the store. -/
theorem hasScope_of_own? (h : (store.own? id name).isSome) : store.HasScope id := by
  obtain ⟨value, hvalue⟩ := Option.isSome_iff_exists.1 h
  obtain ⟨scope, hscope, -⟩ := Option.bind_eq_some_iff.1 hvalue
  exact hasScope_iff.2 ⟨scope, hscope⟩

/-- One store is another with the value of a name changed that a scope binds itself. -/
structure Rebinds (store after : Store) (target : ScopeId) (name : String) (value : Value) :
    Prop where
  /-- The scope binds the name to the new value. -/
  changed : after.own? target name = some value
  /-- All other bindings of all scopes are as they were. -/
  others : ∀ id m, ¬(id = target ∧ m = name) → after.own? id m = store.own? id m
  /-- The names that the scopes bind are as they were. -/
  names : ∀ id, after.names id = store.names id
  /-- The parents of the scopes are as they were. -/
  parents : ∀ id, after.parent? id = store.parent? id
  /-- All that is not a scope is as it was. -/
  elsewhere : after = { store with scopes := after.scopes }

/-- Binding a name that a scope binds already changes that binding alone. -/
theorem rebinds_define (hbound : (store.own? target name).isSome) :
    store.Rebinds (store.define target name value) target name value where
  changed := by simp [own?_define (hasScope_of_own? hbound)]
  others id m hne := by rw [own?_define (hasScope_of_own? hbound), if_neg hne]
  names id := by
    by_cases heq : target = id
    · subst heq
      obtain ⟨old, hold⟩ := Option.isSome_iff_exists.1 hbound
      obtain ⟨scope, hscope, hget⟩ := Option.bind_eq_some_iff.1 hold
      simp only [Store.names, scope?_define_self, hscope, Option.map_some]
      exact Scope.names_define_of_bound (by rw [hget]; rfl)
    · rw [Store.names, scope?_define_of_ne heq]
      rfl
  parents id := parent?_define store target id name value
  elsewhere := rfl

/-- A name has a value in a scope exactly where testing for it finds it. -/
theorem get_eq_ok_iff : (∃ value, store.get id name = .ok value) ↔ store.binds id name = true := by
  rw [get, get?_eq, binds, anyBinds_eq]
  change _ ↔ (store.resolve? id name).isSome = true
  cases hfound : store.resolve? id name with
  | none => simp
  | some found =>
    obtain ⟨scope, hscope, hbound⟩ := resolve?_binds hfound
    obtain ⟨value, hvalue⟩ := Option.isSome_iff_exists.1 hbound
    simp [own?, hscope, hvalue]

/-- A name can be overwritten from a scope exactly where testing for it finds it. -/
theorem set_eq_ok_iff :
    (∃ after, store.set id name value = .ok after) ↔ store.binds id name = true := by
  rw [set_eq, binds, anyBinds_eq]
  change _ ↔ (store.resolve? id name).isSome = true
  cases store.resolve? id name <;> simp

/-- In every tree of scopes, reading a name and overwriting it from a scope succeed exactly where
testing for it finds it.

A successful overwriting changes one binding, in the scope that binds the name nearest: the name has
the new value from all scopes that have their nearest binding of it there, and every other lookup is
as it was. One that fails leaves the machine as it was. Binding a name in a scope is seen from the
scopes whose way outwards reaches it before any other scope that binds the name, and from no other.

The names of a scope are those that it binds itself, each once and in ascending order. -/
theorem lookups_of_built (tree : store.Built) (has : store.HasScope id) (name : String)
    (value : Value) :
    ((∃ found, store.get id name = .ok found) ↔ store.binds id name = true) ∧
    ((∃ after, store.set id name value = .ok after) ↔ store.binds id name = true) ∧
    (∀ after, store.set id name value = .ok after →
      ∃ target, store.NearestBinding name id target ∧ store.Rebinds after target name value ∧
        (∀ other, store.NearestBinding name other target → after.get other name = .ok value) ∧
        ∀ other m, ¬(m = name ∧ store.NearestBinding name other target) →
          after.get other m = store.get other m) ∧
    (store.binds id name = false → ∀ m : Machine, m.store = store →
      Run.attempt (fun store => store.set id name value) m =
        (.failed ⟨.undefinedVariable name, none⟩, m)) ∧
    ((∀ other, store.ReachesFirst name id other →
        (store.define id name value).get other name = .ok value) ∧
      ∀ other m, ¬(m = name ∧ store.ReachesFirst name id other) →
        (store.define id name value).get other m = store.get other m) ∧
    (store.names id).Pairwise (· < ·) ∧
    ∀ m, m ∈ store.names id ↔ (store.own? id m).isSome := by
  have htree := tree.isTree
  -- What is seen of a binding, as causes and values.
  have hseen {target other : ScopeId} (htarget : store.HasScope target)
      (hreach : store.ReachesFirst name target other) :
      (store.define target name value).get other name = .ok value := by
    rw [get, htree.get?_define_of_reachesFirst htarget hreach]
  have hunseen {target other : ScopeId} {m : String} (htarget : store.HasScope target)
      (hnot : ¬(m = name ∧ store.ReachesFirst name target other)) :
      (store.define target name value).get other m = store.get other m := by
    rw [get, htree.get?_define_of_not htarget hnot, get]
  refine ⟨get_eq_ok_iff, set_eq_ok_iff, fun after hset => ?_, fun hfree m hm => ?_,
    ⟨fun other => hseen has, fun other m => hunseen has⟩, ?_, fun m => ?_⟩
  · obtain ⟨target, htarget, rfl⟩ := set_eq_ok hset
    have hnear := htree.resolve?_eq_some_iff.1 htarget
    have hhas := hasScope_of_own? hnear.bound
    refine ⟨target, hnear, rebinds_define hnear.bound, fun other hother => ?_,
      fun other m hother => ?_⟩
    · exact hseen hhas ((reachesFirst_iff_nearestBinding hnear.bound).2 hother)
    · exact hunseen hhas fun h =>
        hother ⟨h.1, (reachesFirst_iff_nearestBinding hnear.bound).1 h.2⟩
  · rw [binds, anyBinds_eq] at hfree
    have hnone : store.resolve? id name = none := Option.not_isSome_iff_eq_none.1 (by
      rw [resolve?, hfree]
      exact Bool.false_ne_true)
    rw [Run.attempt, hm, set_eq, hnone]
  · obtain ⟨scope, hscope⟩ := hasScope_iff.1 has
    rw [Store.names, hscope]
    exact Scope.pairwise_names (htree.distinct hscope)
  · obtain ⟨scope, hscope⟩ := hasScope_iff.1 has
    rw [Store.names, own?, hscope]
    exact Scope.mem_names.trans Scope.get?_isSome_iff.symm

/-- In a child of a root that binds `x`, overwriting `x` changes it in the root. -/
theorem lookups_of_built_child :
    let tree := ((initial.define globalScope "x" (.bool true)).child globalScope).2
    tree.Built ∧ tree.HasScope ⟨1⟩ ∧ tree.binds ⟨1⟩ "x" = true ∧
      ∃ after, tree.set ⟨1⟩ "x" .null = .ok after ∧ after.get globalScope "x" = .ok .null := by
  intro tree
  have hbuilt : tree.Built := .child (.define .root _ _ _) Nat.one_pos
  have has : tree.HasScope ⟨1⟩ := Nat.one_lt_two
  obtain ⟨hget, hset, hchange, -⟩ := lookups_of_built hbuilt has "x" .null
  have hroot : tree.NearestBinding "x" globalScope globalScope := .here rfl
  have hnear : tree.NearestBinding "x" ⟨1⟩ globalScope := .around rfl rfl hroot
  have hbinds : tree.binds ⟨1⟩ "x" = true := by
    rw [binds, anyBinds_eq]
    exact Option.isSome_iff_exists.2 ⟨_, hbuilt.isTree.resolve?_eq_some_iff.2 hnear⟩
  obtain ⟨after, hafter⟩ := hset.2 hbinds
  obtain ⟨target, htarget, -, hseen, -⟩ := hchange after hafter
  have heq : target = globalScope := Option.some.inj
    ((hbuilt.isTree.resolve?_eq_some_iff.2 htarget).symm.trans
      (hbuilt.isTree.resolve?_eq_some_iff.2 hnear))
  exact ⟨hbuilt, has, hbinds, after, hafter, hseen globalScope (heq ▸ hroot)⟩

end Store

end QuantumScript
