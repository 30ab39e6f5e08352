import QuantumScript.Store

/-!
# Paths through arrays

Arrays may hold each other in a circle. A walk through arrays keeps the path of arrays it is inside
of, and does not enter one of them again. `unvisited` counts the arrays of the store that are not on
the path; it falls with every array entered, so that every walk ends.
-/

namespace QuantumScript

namespace Store

/-- The number of arrays of the store that are not on a path. -/
def unvisited (store : Store) (path : List ArrayId) : Nat :=
  (List.range store.arrays.size).countP fun index => ⟨index⟩ ∉ path

/-- A narrower condition that fails at a member where a wider one holds counts fewer members. -/
theorem countP_lt_of_mem {α : Type} {p q : α → Bool} {l : List α} {a : α} (hm : a ∈ l)
    (hpq : ∀ x, q x = true → p x = true) (hp : p a = true) (hq : q a = false) :
    l.countP q < l.countP p := by
  induction l with
  | nil => simp at hm
  | cons b l ih =>
    have hle : l.countP q ≤ l.countP p := List.countP_mono_left fun x _ => hpq x
    rcases List.mem_cons.1 hm with rfl | hm
    · rw [List.countP_cons_of_pos hp, List.countP_cons_of_neg (by simp [hq])]
      omega
    · have := ih hm
      rw [List.countP_cons, List.countP_cons]
      cases hb : q b with
      | true => simp [hpq b hb]; omega
      | false => simp; omega

/-- Entering an array leaves fewer arrays unvisited. -/
theorem unvisited_cons_lt {store : Store} {path : List ArrayId} {id : ArrayId}
    (hid : id.index < store.arrays.size) (hp : id ∉ path) :
    store.unvisited (id :: path) < store.unvisited path := by
  refine countP_lt_of_mem (List.mem_range.2 hid) ?_ (by simpa using hp) (by simp)
  intro x hx
  simp only [List.mem_cons, not_or, decide_eq_true_eq] at hx ⊢
  exact hx.2

/-- Only an array of the store has items. -/
theorem lt_size_of_mem_items {store : Store} {id : ArrayId} {item : Value}
    (h : item ∈ (store.items id).toList) : id.index < store.arrays.size := by
  refine Nat.lt_of_not_le fun hle => ?_
  rw [items, Array.getElem?_eq_none hle] at h
  cases h

/-- A longer path leaves no more arrays unvisited. -/
theorem unvisited_cons_le (store : Store) (path : List ArrayId) (id : ArrayId) :
    store.unvisited (id :: path) ≤ store.unvisited path := by
  refine List.countP_mono_left fun x _ hx => ?_
  simp only [List.mem_cons, not_or, decide_eq_true_eq] at hx ⊢
  exact hx.2

end Store

end QuantumScript
