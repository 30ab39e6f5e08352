import QuantumScript.Proofs.Program.Shape
import QuantumScript.Proofs.Store.Scope

/-!
# Well-formed stores

Bindings, array items and closures name entries of a store by their place. In a well-formed store
all of these entries exist, and every scope but the outermost has a parent that was made before it.
So the way from a scope outwards is finite and ends at the outermost scope
(`Store.WellFormed.exists_outwards`), although values may name each other in circles.

`Store.Grows` says what one store keeps of another: every entry, the parent of every scope and the
names that are bound in it. What exists in a store still exists after it has grown, and each change
of a store that a program can make lets it grow and keeps it well-formed.
-/

namespace QuantumScript

/-- The entry that a value names, if it names one, is in a store. -/
def Value.LivesIn (store : Store) : Value → Prop
  | .array id => id.index < store.arrays.size
  | .object id => id.index < store.objects.size
  | .function id => id.index < store.closures.size
  | .number _ | .text _ | .bool _ | .null | .native _ => True

namespace Store

variable {store after : Store} {id parent : ScopeId} {name : String} {value : Value}

/-- A scope is in a store. -/
def HasScope (store : Store) (id : ScopeId) : Prop :=
  id.index < store.scopes.size

/-- A store in which all that is named exists. -/
structure WellFormed (store : Store) : Prop where
  /-- There is an outermost scope, which has no parent. -/
  outermost : ∃ scope, store.scope? globalScope = some scope ∧ scope.parent = none
  /-- Every other scope has a parent that was made before it. -/
  parents : ∀ {id scope}, store.scope? id = some scope → id ≠ globalScope →
    ∃ parent, scope.parent = some parent ∧ parent.index < id.index
  /-- What a name is bound to exists. -/
  bindings : ∀ {id scope}, store.scope? id = some scope →
    ∀ binding ∈ scope.bindings, binding.2.LivesIn store
  /-- The items of arrays exist. -/
  items : ∀ id, ∀ item ∈ store.items id, item.LivesIn store
  /-- The scopes that closures were declared in exist. -/
  captures : ∀ {id f}, store.closure? id = some f → store.HasScope f.scope
  /-- The bodies of closures have the shape of a program. -/
  shapes : ∀ {id f}, store.closure? id = some f → Program.WellShaped f.body

/-- A store keeps all entries of another, the parents of its scopes and the names bound in them. -/
structure Grows (store after : Store) : Prop where
  /-- Every scope is kept with its parent and its names. -/
  scopes : ∀ {id scope}, store.scope? id = some scope →
    ∃ kept, after.scope? id = some kept ∧ kept.parent = scope.parent ∧ scope.names ⊆ kept.names
  /-- Every closure is kept as it is. -/
  closures : ∀ {id f}, store.closure? id = some f → after.closure? id = some f
  /-- Every array is kept. -/
  arrays : store.arrays.size ≤ after.arrays.size
  /-- Every object is kept. -/
  objects : store.objects.size ≤ after.objects.size

/-- A scope is in a store if it can be found there. -/
theorem hasScope_iff : store.HasScope id ↔ ∃ scope, store.scope? id = some scope := by
  rw [HasScope, scope?, ← Option.isSome_iff_exists, isSome_getElem?]

/-! ## The way outwards -/

/-- The scopes from one outwards, each the parent of the one before, up to the outermost. -/
inductive Outwards (store : Store) : ScopeId → List ScopeId → Prop
  /-- The outermost scope has no parent. -/
  | outermost {scope : Scope} (found : store.scope? globalScope = some scope)
    (ends : scope.parent = none) : Outwards store globalScope [globalScope]
  /-- The others have one. -/
  | inner {id parent : ScopeId} {scope : Scope} {rest : List ScopeId}
    (found : store.scope? id = some scope) (around : scope.parent = some parent)
    (outer : Outwards store parent rest) : Outwards store id (id :: rest)

/-- From every scope of a well-formed store the way outwards ends at the outermost scope. -/
theorem WellFormed.exists_outwards (h : store.WellFormed) (hid : store.HasScope id) :
    ∃ chain, store.Outwards id chain := by
  -- The induction is on the place of the scope, since a parent comes before its child.
  induction hn : id.index using Nat.strongRecOn generalizing id with
  | _ n ih =>
    subst hn
    by_cases hglobal : id = globalScope
    · subst hglobal
      obtain ⟨scope, hscope, hends⟩ := h.outermost
      exact ⟨_, .outermost hscope hends⟩
    · obtain ⟨scope, hscope⟩ := hasScope_iff.1 hid
      obtain ⟨parent, hparent, hlt⟩ := h.parents hscope hglobal
      obtain ⟨rest, hrest⟩ := ih parent.index hlt (Nat.lt_trans hlt hid) rfl
      exact ⟨id :: rest, .inner hscope hparent hrest⟩

/-- In a well-formed store no parent is passed over when a name is looked up. -/
theorem WellFormed.outer?_eq (h : store.WellFormed) {scope : Scope}
    (hscope : store.scope? id = some scope) :
    (scope.outer? id.index).map Subtype.val = scope.parent.map ScopeId.index := by
  unfold Scope.outer?
  cases hparent : scope.parent with
  | none => rfl
  | some parent =>
    have hlt : parent.index < id.index := by
      by_cases hglobal : id = globalScope
      · obtain ⟨_, hfound, hends⟩ := h.outermost
        rw [← hglobal, hscope, Option.some.injEq] at hfound
        rw [← hfound, hparent] at hends
        cases hends
      · obtain ⟨_, hfound, hlt⟩ := h.parents hscope hglobal
        rw [hparent, Option.some.injEq] at hfound
        exact hfound ▸ hlt
    simp [hlt]

/-! ## What grows -/

namespace Grows

/-- A store keeps itself. -/
theorem refl (store : Store) : store.Grows store where
  scopes h := ⟨_, h, rfl, List.Subset.refl _⟩
  closures h := h
  arrays := Nat.le_refl _
  objects := Nat.le_refl _

/-- What is kept twice is kept. -/
theorem trans {mid : Store} (first : store.Grows mid) (second : mid.Grows after) :
    store.Grows after where
  scopes h := by
    obtain ⟨kept, hkept, hparent, hnames⟩ := first.scopes h
    obtain ⟨last, hlast, hparent', hnames'⟩ := second.scopes hkept
    exact ⟨last, hlast, hparent'.trans hparent, List.Subset.trans hnames hnames'⟩
  closures h := second.closures (first.closures h)
  arrays := Nat.le_trans first.arrays second.arrays
  objects := Nat.le_trans first.objects second.objects

/-- A store with the same scopes and closures and no fewer arrays and objects has grown. -/
theorem of_code_eq (hscopes : after.scopes = store.scopes)
    (hclosures : after.closures = store.closures)
    (harrays : store.arrays.size ≤ after.arrays.size)
    (hobjects : store.objects.size ≤ after.objects.size) : store.Grows after where
  scopes h := ⟨_, by rw [scope?, hscopes]; exact h, rfl, List.Subset.refl _⟩
  closures h := by rw [closure?, hclosures]; exact h
  arrays := harrays
  objects := hobjects

variable (h : store.Grows after)
include h

/-- Scopes that exist still do so after a store has grown. -/
theorem hasScope (hid : store.HasScope id) : after.HasScope id := by
  obtain ⟨scope, hscope⟩ := hasScope_iff.1 hid
  obtain ⟨kept, hkept, -⟩ := h.scopes hscope
  exact hasScope_iff.2 ⟨kept, hkept⟩

/-- Closures that exist still do so after a store has grown. -/
theorem closures_size_le : store.closures.size ≤ after.closures.size := by
  refine Nat.le_of_not_lt fun hlt => ?_
  have hfound : store.closure? ⟨after.closures.size⟩ = some (store.closures[after.closures.size]) :=
    Array.getElem?_eq_getElem hlt
  have hkept := h.closures hfound
  simp [closure?] at hkept

/-- What a value names still exists after a store has grown. -/
theorem livesIn (hvalue : value.LivesIn store) : value.LivesIn after := by
  cases value with
  | array id => exact Nat.lt_of_lt_of_le hvalue h.arrays
  | object id => exact Nat.lt_of_lt_of_le hvalue h.objects
  | function id => exact Nat.lt_of_lt_of_le hvalue h.closures_size_le
  | _ => trivial

end Grows

/-- A store that has grown by arrays, their items and objects alone is well-formed if the items
exist. -/
theorem WellFormed.of_code_eq (h : store.WellFormed) (hgrows : store.Grows after)
    (hscopes : after.scopes = store.scopes) (hclosures : after.closures = store.closures)
    (hitems : ∀ id, ∀ item ∈ after.items id, item.LivesIn after) : after.WellFormed := by
  have hscope? : after.scope? = store.scope? := by
    funext id
    rw [scope?, hscopes]
    rfl
  have hclosure? : after.closure? = store.closure? := by
    funext id
    rw [closure?, hclosures]
    rfl
  exact {
    outermost := hscope? ▸ h.outermost
    parents := fun hid => h.parents (hscope? ▸ hid)
    bindings := fun hid binding hmem => hgrows.livesIn (h.bindings (hscope? ▸ hid) binding hmem)
    items := hitems
    captures := fun hid => hgrows.hasScope (h.captures (hclosure? ▸ hid))
    shapes := fun hid => h.shapes (hclosure? ▸ hid) }

/-! ## Scopes and names -/

/-- The store with one scope is well-formed. -/
theorem initial_wellFormed : initial.WellFormed where
  outermost := ⟨⟨none, []⟩, rfl, rfl⟩
  parents {id scope} hid hne := by
    have hlt : id.index < 1 := (Array.getElem?_eq_some_iff.1 hid).1
    exact absurd (congrArg ScopeId.mk (Nat.lt_one_iff.1 hlt)) hne
  bindings {id scope} hid := by
    have hlt : id.index < 1 := (Array.getElem?_eq_some_iff.1 hid).1
    obtain rfl : id = ⟨0⟩ := congrArg ScopeId.mk (Nat.lt_one_iff.1 hlt)
    cases hid
    exact nofun
  items id := by simp [Store.items, initial]
  captures h := by simp [closure?, initial] at h
  shapes h := by simp [closure?, initial] at h

/-- A new scope leaves the others. -/
theorem grows_child (store : Store) (parent : ScopeId) : store.Grows (store.child parent).2 where
  scopes {id scope} h := by
    have hne : id ≠ store.nextScope := by
      rintro rfl
      rw [scope?_nextScope] at h
      cases h
    exact ⟨scope, (scope?_child_of_ne parent hne).trans h, rfl, List.Subset.refl _⟩
  closures h := h
  arrays := Nat.le_refl _
  objects := Nat.le_refl _

/-- The next scope, once it is made. -/
theorem scope?_child_self (store : Store) (parent : ScopeId) :
    (store.child parent).2.scope? store.nextScope = some ⟨some parent, []⟩ := by
  simp [scope?, child, nextScope]

/-- The next scope exists once it is made. -/
theorem hasScope_nextScope (store : Store) (parent : ScopeId) :
    (store.child parent).2.HasScope store.nextScope :=
  hasScope_iff.2 ⟨_, scope?_child_self store parent⟩

/-- A store is well-formed with a new scope inside one that exists. -/
theorem WellFormed.child (h : store.WellFormed) (hparent : store.HasScope parent) :
    (store.child parent).2.WellFormed := by
  have hgrows := grows_child store parent
  -- A scope of the new store is the new one, which binds nothing, or was there before.
  have hcases {id : ScopeId} {scope : Scope} (hid : (store.child parent).2.scope? id = some scope) :
      (id = store.nextScope ∧ scope = ⟨some parent, []⟩) ∨ store.scope? id = some scope := by
    by_cases hnext : id = store.nextScope
    · subst hnext
      rw [scope?_child_self, Option.some.injEq] at hid
      exact .inl ⟨rfl, hid.symm⟩
    · rw [scope?_child_of_ne parent hnext] at hid
      exact .inr hid
  refine ⟨?_, fun hid hglobal => ?_, fun hid binding hmem => ?_,
    fun id item hmem => hgrows.livesIn (h.items id item hmem),
    fun hid => hgrows.hasScope (h.captures hid), h.shapes⟩
  · obtain ⟨scope, hscope, hends⟩ := h.outermost
    obtain ⟨kept, hkept, hsame, -⟩ := hgrows.scopes hscope
    exact ⟨kept, hkept, hsame.trans hends⟩
  · rcases hcases hid with ⟨rfl, rfl⟩ | hid
    · exact ⟨parent, rfl, hparent⟩
    · exact h.parents hid hglobal
  · rcases hcases hid with ⟨-, rfl⟩ | hid
    · cases hmem
    · exact hgrows.livesIn (h.bindings hid binding hmem)

/-- Binding a name keeps what was bound. -/
theorem grows_define (store : Store) (id : ScopeId) (name : String) (value : Value) :
    store.Grows (store.define id name value) where
  scopes {other scope} h := by
    by_cases heq : id = other
    · subst heq
      refine ⟨scope.define name value, ?_, rfl, Scope.names_subset_define⟩
      rw [scope?_define_self, h, Option.map_some]
    · exact ⟨scope, (scope?_define_of_ne heq).trans h, rfl, List.Subset.refl _⟩
  closures h := h
  arrays := Nat.le_refl _
  objects := Nat.le_refl _

/-- A binding after a name was bound is the new one or was there before. -/
theorem mem_bind {bindings : List (String × Value)} {binding : String × Value}
    (h : binding ∈ bind name value bindings) : binding = (name, value) ∨ binding ∈ bindings := by
  induction bindings with
  | nil => exact .inl (List.mem_singleton.1 h)
  | cons first rest ih =>
    obtain ⟨other, old⟩ := first
    rw [bind] at h
    split at h
    · rcases List.mem_cons.1 h with h | h
      · exact .inl h
      · exact .inr (List.mem_cons_of_mem _ h)
    · rcases List.mem_cons.1 h with h | h
      · exact .inr (h ▸ List.mem_cons_self)
      · exact (ih h).imp_right (List.mem_cons_of_mem _)

/-- A store is well-formed with a name bound to something that exists. -/
theorem WellFormed.define (h : store.WellFormed) (hvalue : value.LivesIn store) (id : ScopeId)
    (name : String) : (store.define id name value).WellFormed := by
  have hgrows := grows_define store id name value
  -- A scope of the new store has the parent it had, and its bindings but perhaps the new one.
  have hcases {other : ScopeId} {scope : Scope}
      (hother : (store.define id name value).scope? other = some scope) :
      ∃ old, store.scope? other = some old ∧ scope.parent = old.parent ∧
        ∀ binding ∈ scope.bindings, binding = (name, value) ∨ binding ∈ old.bindings := by
    by_cases heq : id = other
    · subst heq
      rw [scope?_define_self, Option.map_eq_some_iff] at hother
      obtain ⟨old, hold, rfl⟩ := hother
      exact ⟨old, hold, rfl, fun _ => mem_bind⟩
    · rw [scope?_define_of_ne heq] at hother
      exact ⟨scope, hother, rfl, fun _ => .inr⟩
  refine ⟨?_, fun hother hglobal => ?_, fun hother binding hmem => ?_, h.items,
    fun hf => hgrows.hasScope (h.captures hf), h.shapes⟩
  · obtain ⟨scope, hscope, hends⟩ := h.outermost
    obtain ⟨kept, hkept, hsame, -⟩ := hgrows.scopes hscope
    exact ⟨kept, hkept, hsame.trans hends⟩
  · obtain ⟨old, hold, hsame, -⟩ := hcases hother
    rw [hsame]
    exact h.parents hold hglobal
  · obtain ⟨old, hold, -, hbindings⟩ := hcases hother
    rcases hbindings binding hmem with rfl | hmem
    · exact hgrows.livesIn hvalue
    · exact hgrows.livesIn (h.bindings hold binding hmem)

/-- What a name is found to stand for exists. -/
theorem WellFormed.livesIn_of_get? (h : store.WellFormed) (hget : store.get? id name = some value) :
    value.LivesIn store := by
  unfold get? at hget
  generalize id.index = index at hget
  -- The induction follows the walk from a scope to the one around it.
  fun_induction lookup? store.scopes name index with
  | case1 | case3 => cases hget
  | case2 index scope hscope found hfound =>
    cases hget
    obtain ⟨before, rest, hsplit, -⟩ := List.lookup_eq_some_iff.1 hfound
    have hid : store.scope? ⟨index⟩ = some scope := hscope
    exact h.bindings hid (name, value) (hsplit ▸ List.mem_append_right _ List.mem_cons_self)
  | case4 index scope hscope hfound outer houter ih => exact ih hget

/-! ## Closures, arrays and objects -/

/-- A new closure leaves the others. -/
theorem grows_newClosure (store : Store) (f : Closure) : store.Grows (store.newClosure f).2 where
  scopes h := ⟨_, h, rfl, List.Subset.refl _⟩
  closures {id g} h := by
    have hlt : id.index < store.closures.size := (Array.getElem?_eq_some_iff.1 h).1
    rw [closure?, newClosure, Array.getElem?_push_lt hlt]
    exact Array.getElem?_eq_getElem hlt ▸ h
  arrays := Nat.le_refl _
  objects := Nat.le_refl _

/-- A store is well-formed with a new closure from a scope that exists. -/
theorem WellFormed.newClosure (h : store.WellFormed) {f : Closure} (hscope : store.HasScope f.scope)
    (hshape : Program.WellShaped f.body) : (store.newClosure f).2.WellFormed := by
  have hgrows := grows_newClosure store f
  have hcases {id : ClosureId} {g : Closure} (hid : (store.newClosure f).2.closure? id = some g) :
      g = f ∨ store.closure? id = some g := by
    rw [closure?, Store.newClosure, Array.getElem?_push] at hid
    split at hid
    · exact .inl (Option.some.inj hid).symm
    · exact .inr hid
  refine ⟨h.outermost, h.parents,
    fun hid binding hmem => hgrows.livesIn (h.bindings hid binding hmem),
    fun id item hmem => hgrows.livesIn (h.items id item hmem), fun hid => ?_, fun hid => ?_⟩
  · rcases hcases hid with rfl | hid
    · exact hscope
    · exact h.captures hid
  · rcases hcases hid with rfl | hid
    · exact hshape
    · exact h.shapes hid

/-- A new array leaves the others. -/
theorem grows_newArray (store : Store) (items : Array Value) :
    store.Grows (store.newArray items).2 :=
  .of_code_eq rfl rfl (by simp [newArray]) (Nat.le_refl _)

/-- A store is well-formed with a new array of items that exist. -/
theorem WellFormed.newArray (h : store.WellFormed) {items : Array Value}
    (hitems : ∀ item ∈ items, item.LivesIn store) : (store.newArray items).2.WellFormed := by
  have hgrows := grows_newArray store items
  refine h.of_code_eq hgrows rfl rfl fun id item hmem => hgrows.livesIn ?_
  simp only [Store.items, Store.newArray, Array.getElem?_push] at hmem
  split at hmem
  · exact hitems item hmem
  · exact h.items id item hmem

/-- A new item leaves the arrays. -/
theorem grows_push (store : Store) (id : ArrayId) (item : Value) :
    store.Grows (store.push id item) :=
  .of_code_eq rfl rfl (by simp [push]) (Nat.le_refl _)

/-- The items of an array after the items of one were changed. -/
theorem mem_items_modify {change : Array Value → Array Value} {id other : ArrayId} {item : Value}
    (h : item ∈
      ({ store with arrays := store.arrays.modify id.index change } : Store).items other) :
    item ∈ store.items other ∨ item ∈ change (store.items other) := by
  simp only [items, Array.getElem?_modify] at h ⊢
  split at h
  · cases hfound : store.arrays[other.index]? with
    | none => simp [hfound] at h
    | some found =>
      rw [hfound] at h
      exact .inr h
  · exact .inl h

/-- A store is well-formed with a new item that exists. -/
theorem WellFormed.push (h : store.WellFormed) (id : ArrayId) {item : Value}
    (hitem : item.LivesIn store) : (store.push id item).WellFormed := by
  have hgrows := grows_push store id item
  refine h.of_code_eq hgrows rfl rfl fun other found hmem => hgrows.livesIn ?_
  rcases mem_items_modify hmem with hmem | hmem
  · exact h.items other found hmem
  · rcases Array.mem_push.1 hmem with hmem | rfl
    · exact h.items other found hmem
    · exact hitem

/-- Removing an item leaves the arrays. -/
theorem grows_pop (store : Store) (id : ArrayId) : store.Grows (store.pop id) :=
  .of_code_eq rfl rfl (by simp [pop]) (Nat.le_refl _)

/-- A store is well-formed without an item. -/
theorem WellFormed.pop (h : store.WellFormed) (id : ArrayId) : (store.pop id).WellFormed := by
  have hgrows := grows_pop store id
  refine h.of_code_eq hgrows rfl rfl fun other found hmem => hgrows.livesIn (h.items other found ?_)
  rcases mem_items_modify hmem with hmem | hmem
  · exact hmem
  · rw [← Array.mem_toList_iff, Array.toList_pop] at hmem
    exact Array.mem_toList_iff.1 (List.dropLast_subset _ hmem)

/-- A new object leaves the others. -/
theorem grows_newObject (store : Store) (object : Object) :
    store.Grows (store.newObject object).2 :=
  .of_code_eq rfl rfl (Nat.le_refl _) (by simp [newObject])

/-- A store is well-formed with a new object. -/
theorem WellFormed.newObject (h : store.WellFormed) (object : Object) :
    (store.newObject object).2.WellFormed := by
  have hgrows := grows_newObject store object
  exact h.of_code_eq hgrows rfl rfl fun id item hmem => hgrows.livesIn (h.items id item hmem)

/-- An object in the place of another leaves the others. -/
theorem grows_setObject (store : Store) (id : ObjectId) (object : Object) :
    store.Grows (store.setObject id object) :=
  .of_code_eq rfl rfl (Nat.le_refl _) (by simp [setObject])

/-- A store is well-formed with an object in the place of another. -/
theorem WellFormed.setObject (h : store.WellFormed) (id : ObjectId) (object : Object) :
    (store.setObject id object).WellFormed := by
  have hgrows := grows_setObject store id object
  exact h.of_code_eq hgrows rfl rfl fun id item hmem => hgrows.livesIn (h.items id item hmem)

end Store

end QuantumScript
