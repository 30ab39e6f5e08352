import QuantumScript.Proofs.Run.Effects

/-!
# Which scopes a run may bind names in

Whatever a run does, and however it ends, every scope that was there keeps its parent and its names,
but for the scope that the run is made in, which may gain names. A block, a call and the rounds of a
loop gain none there either (`Eval.run_frame`).
-/

namespace QuantumScript

/-- Every scope of a store is still there in another, with the same parent and the same names; only
the scope `own` may have gained names. -/
def Store.Frame (own : Option ScopeId) (before after : Store) : Prop :=
  ∀ id scope, before.scope? id = some scope →
    ∃ later, after.scope? id = some later ∧ later.parent = scope.parent ∧
      scope.names ⊆ later.names ∧ (own ≠ some id → later.names = scope.names)

namespace Store.Frame

variable {own : Option ScopeId} {store before mid after : Store} {name : String} {value : Value}

/-- Where the scopes are the same, nothing is gained. -/
theorem of_scopes_eq (h : after.scopes = before.scopes) : Frame own before after := by
  intro id scope hs
  refine ⟨scope, ?_, rfl, fun _ hn => hn, fun _ => rfl⟩
  unfold scope? at hs ⊢
  rw [h, hs]

/-- What two changes keep, they keep together. -/
theorem trans (h : Frame own before mid) (h' : Frame own mid after) : Frame own before after := by
  intro id scope hs
  obtain ⟨later, hl, hparent, hsub, hnames⟩ := h id scope hs
  obtain ⟨last, hlast, hparent', hsub', hnames'⟩ := h' id later hl
  exact ⟨last, hlast, hparent'.trans hparent, fun _ hn => hsub' (hsub hn),
    fun hne => (hnames' hne).trans (hnames hne)⟩

/-- A scope that was not there yet may gain names. -/
theorem of_new (h : Frame (some before.nextScope) before after) : Frame own before after := by
  intro id scope hs
  -- A scope that was there is not the new one, so its names were kept.
  have hne : before.nextScope ≠ id := by
    rintro rfl
    rw [scope?_nextScope] at hs
    cases hs
  obtain ⟨later, hl, hparent, hsub, hnames⟩ := h id scope hs
  exact ⟨later, hl, hparent, hsub, fun _ => hnames fun heq => hne (Option.some.inj heq)⟩

/-- Binding a name lets no scope gain one, if the scope is `own` or has the name bound already. -/
theorem define_of_bound {id : ScopeId} (hb : ∀ scope, store.scope? id = some scope →
    own ≠ some id → (scope.get? name).isSome) : Frame own store (store.define id name value) := by
  intro other scope hs
  by_cases heq : id = other
  · subst heq
    refine ⟨scope.define name value, ?_, rfl, Scope.names_subset_define,
      fun hne => Scope.names_define_of_bound (hb scope hs hne)⟩
    rw [scope?_define_self, hs]
    rfl
  · rw [← scope?_define_of_ne heq] at hs
    exact ⟨scope, hs, rfl, fun _ hn => hn, fun _ => rfl⟩

/-- Binding a name lets the scope gain it. -/
theorem define (id : ScopeId) : Frame (some id) store (store.define id name value) :=
  define_of_bound fun _ _ hne => absurd rfl hne

/-- An assignment overwrites a name where it is bound, or lets the scope itself gain it. -/
theorem assigned (id : ScopeId) : Frame (some id) store (store.assigned id name value) := by
  unfold Store.assigned
  -- The scope that a name resolves to has it bound, so that only its value is overwritten.
  cases hr : store.resolve? id name with
  | none => exact define id
  | some found =>
    obtain ⟨scope, hs, hb⟩ := resolve?_binds hr
    refine define_of_bound fun bound hbound _ => ?_
    have heq : scope = bound := Option.some.inj (hs.symm.trans hbound)
    exact heq ▸ hb

/-- A new scope lets no other gain a name. -/
theorem child (parent : ScopeId) : Frame own store (store.child parent).2 := by
  apply of_new
  intro id scope hs
  have hne : id ≠ store.nextScope := by
    rintro rfl
    rw [scope?_nextScope] at hs
    cases hs
  rw [← scope?_child_of_ne parent hne] at hs
  exact ⟨scope, hs, rfl, fun _ hn => hn, fun _ => rfl⟩

/-- Binding parameters lets their scope gain them. -/
theorem bindAll (id : ScopeId) (params : List String) (args : List Value) (store : Store) :
    Frame (some id) store (Eval.bindAll id params args store) := by
  unfold Eval.bindAll
  induction params.zip args generalizing store with
  | nil => exact of_scopes_eq rfl
  | cons pair pairs ih => exact (define id).trans (ih _)

/-- A scope that is opened lets no other gain a name, also when more is bound in it. -/
theorem opened {m : Machine} {parent : ScopeId} {params : List String} {args : List Value}
    (h : Frame (some m.store.nextScope) (m.opened parent params args).store after) :
    Frame own m.store after :=
  of_new ((child parent).trans ((bindAll m.store.nextScope params args _).trans h))

end Store.Frame

/-- Whatever a run may do lets only its own scope gain names. -/
theorem Effects.frame {own : Option ScopeId} {before after : Machine}
    (h : Effects own before after) : Store.Frame own before.store after.store := by
  -- What happens inside a new scope binds names there, and that scope was not there before.
  induction h with
  | refl m => exact .of_scopes_eq rfl
  | trans _ _ ihf ihs => exact ihf.trans ihs
  | assign name value m => exact .assigned _
  | define name value m => exact .define _
  | closure f m => exact .of_scopes_eq rfl
  | array items m => exact .of_scopes_eq rfl
  | library h m => exact .of_scopes_eq (h.leaves m).1
  | inside parent params args _ ih => exact .opened ih
  | called parent params args _ ih => exact .opened ih

/-- Expressions and statements let only the scope they are run in gain names; blocks, calls and the
rounds of loops let no scope gain any that was there. No scope loses a name or its parent. -/
theorem Eval.run_frame (limit fuel : Nat) (scope : ScopeId) (m : Machine) :
    (∀ e, Store.Frame (some scope) m.store (evaluate limit fuel scope e m).2.store) ∧
    (∀ s, Store.Frame (some scope) m.store (execute limit fuel scope s m).2.store) ∧
    (∀ body span,
      Store.Frame none m.store (execute limit fuel scope (.block body span) m).2.store) ∧
    (∀ callee args span,
      Store.Frame none m.store (callValue limit fuel callee args span m).2.store) ∧
    (∀ binder items body last,
      Store.Frame none m.store (executeFor limit fuel scope binder items body last m).2.store) := by
  have h := effected limit fuel
  exact ⟨fun e => (h.evaluate scope e m).frame, fun s => (h.execute scope s m).frame,
    fun body span => (h.block scope body span m).frame,
    fun callee args span => (h.callValue callee args span m).frame,
    fun binder items body last => (h.executeFor scope binder items body last m).frame⟩

end QuantumScript
