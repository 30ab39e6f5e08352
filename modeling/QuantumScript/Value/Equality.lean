import QuantumScript.Value.Path

/-!
# Equality of values

Values of different kinds are never equal. Arrays are equal when they are the same or when their
items are, one by one; functions and objects only when they are the same. A comparison that comes
back to an array it is inside of answers no, unless the two arrays are the same.
-/

namespace QuantumScript

namespace Store

/-- Whether two values are equal inside the arrays of a path, those of both sides together. -/
def equalWithin (store : Store) (path : List ArrayId) (x y : Value) : Bool :=
  match x, y with
  | .number a, .number b => a == b
  | .text a, .text b => a == b
  | .bool a, .bool b => a == b
  | .null, .null => true
  | .array a, .array b =>
    if a = b then true
    else if _hp : a ∈ path ∨ b ∈ path then false
    else
      let xs := (store.items a).toList
      let ys := (store.items b).toList
      xs.length == ys.length &&
        (xs.zip ys).attach.all fun pair => store.equalWithin (a :: b :: path) pair.val.1 pair.val.2
  | .function a, .function b => a = b
  | .native f, .native g => f.name == g.name
  | .object a, .object b => a = b
  | _, _ => false
termination_by store.unvisited path
decreasing_by
  have hid : a.index < store.arrays.size := lt_size_of_mem_items (List.of_mem_zip pair.property).1
  refine Nat.lt_of_lt_of_le (unvisited_cons_lt hid ?_) (unvisited_cons_le store path b)
  simp_all

/-- Two arrays that are not the same and not on the path are compared item by item. -/
theorem equalWithin_array {store : Store} {path : List ArrayId} {a b : ArrayId} (hab : a ≠ b)
    (hp : ¬ (a ∈ path ∨ b ∈ path)) :
    store.equalWithin path (.array a) (.array b) =
      ((store.items a).toList.length == (store.items b).toList.length &&
        ((store.items a).toList.zip (store.items b).toList).all fun pair =>
          store.equalWithin (a :: b :: path) pair.1 pair.2) := by
  rw [equalWithin, if_neg hab, dif_neg hp]
  dsimp only
  rw [List.all_subtype
    (g := fun pair : Value × Value => store.equalWithin (a :: b :: path) pair.1 pair.2)
    (fun _ _ => rfl), List.unattach_attach]

/-- Whether two values are equal. -/
def equal (store : Store) (x y : Value) : Bool :=
  store.equalWithin [] x y

end Store

end QuantumScript
