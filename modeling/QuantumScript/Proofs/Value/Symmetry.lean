import QuantumScript.Proofs.Value.Transitivity

/-!
# Equality is symmetric

The comparison of two values in the other order comes to the same pairs of values with their sides
exchanged, and notes the two arrays of every step in the other order (`Meets.exchanged`). The answer
for two values depends on a path only through the arrays on it, not through their order
(`equalWithin_exchanged`). So a comparison gives the same answer in both orders, on cycles too, and
it does so at every point on its way (`equal_symm`).
-/

namespace QuantumScript

namespace Store

variable {store : Store} {x y u v : Value} {path p q : List ArrayId}

/-- Paths of the same arrays still have the same arrays after a step that enters two more, in either
order. -/
theorem mem_step_iff (hpq : ∀ id, id ∈ p ↔ id ∈ q) (a b id : ArrayId) :
    id ∈ a :: b :: p ↔ id ∈ b :: a :: q := by
  calc id ∈ a :: b :: p
      ↔ id = a ∨ id = b ∨ id ∈ p := by rw [List.mem_cons, List.mem_cons]
    _ ↔ id = b ∨ id = a ∨ id ∈ p := or_left_comm
    _ ↔ id = b ∨ id = a ∨ id ∈ q := by rw [hpq id]
    _ ↔ id ∈ b :: a :: q := by rw [List.mem_cons, List.mem_cons]

/-- Values that are equal inside the arrays of a path are equal in the other order inside the same
arrays. -/
theorem equalWithin_of_exchanged (hpq : ∀ id, id ∈ p ↔ id ∈ q)
    (h : store.equalWithin p x y = true) : store.equalWithin q y x = true := by
  -- The two runs note their arrays in different orders, so the induction is over pairs of paths.
  induction hcount : store.unvisited p using Nat.strongRecOn generalizing p q x y with
  | ind count ih =>
    subst hcount
    have hagree := (equalWithin_iff.1 h).symm
    apply equalWithin_iff.2
    apply hagree.imp
    intro b a _ _ hab
    rcases hab with hsame | ⟨hoff, hitems⟩
    · exact .inl hsame.symm
    · have hoff' : ¬ (b ∈ q ∨ a ∈ q) := by
        rw [← hpq, ← hpq]
        exact fun hon => hoff hon.symm
      refine .inr ⟨hoff', hitems.length.symm, fun i v u hv hu => ?_⟩
      have hfewer := unvisited_pair_lt (mem_items_of_getElem? hu) hoff
      have hequal := hitems.each i u v hu hv
      exact ih _ hfewer (mem_step_iff hpq a b) hequal rfl

/-- Inside the same arrays, the comparison of two values gives the same answer in both orders. -/
theorem equalWithin_exchanged (hpq : ∀ id, id ∈ p ↔ id ∈ q) (x y : Value) :
    store.equalWithin p x y = store.equalWithin q y x := by
  rw [Bool.eq_iff_iff]
  constructor
  · exact equalWithin_of_exchanged hpq
  · exact equalWithin_of_exchanged fun id => (hpq id).symm

/-- A path with the two arrays of every step in the other order. -/
def exchanged : List ArrayId → List ArrayId
  | a :: b :: path => b :: a :: exchanged path
  | path => path

/-- The arrays of a path are the same in the other order. -/
theorem mem_exchanged_iff (path : List ArrayId) : ∀ id, id ∈ path ↔ id ∈ exchanged path := by
  fun_induction exchanged path with
  | case1 a b path ih => exact mem_step_iff ih a b
  | case2 => exact fun _ => Iff.rfl

/-- The comparison in the other order comes to the same pairs, exchanged. -/
theorem Meets.exchanged (hm : store.Meets x y path u v) :
    store.Meets y x (exchanged path) v u := by
  induction hm with
  | start => exact .start
  | item outer differ left right ih => exact ih.item differ.symm right left

/-- Equality is symmetric: two values compare the same in both orders, the two comparisons come to
the same pairs of values inside the same arrays, and they answer alike for each such pair; and so
they do for any two values inside the arrays of any path, in whatever order the path has them. -/
theorem equal_symm (store : Store) (x y : Value) :
    store.equal x y = store.equal y x ∧
      (∀ path u v, store.Meets x y path u v →
        store.Meets y x (exchanged path) v u ∧
          store.equalWithin path u v = store.equalWithin (exchanged path) v u) ∧
      ∀ p q u v, (∀ id, id ∈ p ↔ id ∈ q) →
        store.equalWithin p u v = store.equalWithin q v u := by
  refine ⟨equalWithin_exchanged (fun _ => Iff.rfl) x y, fun path u v hm => ?_, fun p q u v hpq => ?_⟩
  · exact ⟨hm.exchanged, equalWithin_exchanged (mem_exchanged_iff path) u v⟩
  · exact equalWithin_exchanged hpq u v

/-- An array around an array with the first array as its only item, compared with the first one: the
comparison comes to the inner array inside the outer one, and says no there in both orders. -/
theorem equal_symm_cyclic :
    cyclicArrays.equal (.array ⟨3⟩) (.array ⟨0⟩) = cyclicArrays.equal (.array ⟨0⟩) (.array ⟨3⟩) ∧
      cyclicArrays.Meets (.array ⟨0⟩) (.array ⟨3⟩) [⟨0⟩, ⟨3⟩] (.array ⟨0⟩) (.array ⟨2⟩) ∧
      cyclicArrays.equalWithin [⟨3⟩, ⟨0⟩] (.array ⟨2⟩) (.array ⟨0⟩) = false ∧
      cyclicArrays.equalWithin [⟨0⟩, ⟨3⟩] (.array ⟨0⟩) (.array ⟨2⟩) = false := by
  have hmeets : cyclicArrays.Meets (.array ⟨3⟩) (.array ⟨0⟩) [⟨3⟩, ⟨0⟩] (.array ⟨2⟩) (.array ⟨0⟩) :=
    .item (i := 0) .start (by decide) rfl rfl
  obtain ⟨hsymm, hpoints, hpaths⟩ := equal_symm cyclicArrays (.array ⟨3⟩) (.array ⟨0⟩)
  have hno : cyclicArrays.equalWithin [⟨3⟩, ⟨0⟩] (.array ⟨2⟩) (.array ⟨0⟩) = false := by
    decide +kernel
  have hsame : ∀ id : ArrayId, id ∈ [⟨3⟩, ⟨0⟩] ↔ id ∈ [⟨0⟩, (⟨3⟩ : ArrayId)] := by
    intro id
    simp only [List.mem_cons, List.not_mem_nil, or_false]
    exact or_comm
  exact ⟨hsymm, (hpoints _ _ _ hmeets).1, hno, (hpaths _ _ _ _ hsame).symm.trans hno⟩

end Store

end QuantumScript
